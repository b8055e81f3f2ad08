import DatabasesEverywhere.Foundations.Cursors
import DatabasesEverywhere.Gateway.NativePassword

/-!
# Gateway/MysqlHandshake — the packets in which a MySQL session begins

    greeting   10 ‖ version ∅ ‖ id ‖ seed₁ ∅ ‖ caps₀ ‖ charset ‖ status ‖ caps₁ ‖ n ‖ 0¹⁰ ‖ seed₂ ∅ ‖ plugin ∅
    response   caps ‖ max ‖ charset ‖ 0²³ ‖ user ∅ ‖ n ‖ token ‖ database ∅ ‖ plugin ∅ ‖ 0

Towards its client the gateway is a server, and towards the backend a client: it writes both packets
and reads both.  Each of them is read back as it was written, the seed because its padding is told
from it by its last byte.  The parsers run on any bytes; no index of theirs is out of range.
-/

open Foundations

namespace DatabasesEverywhere.MysqlHandshake

open Cursor Ascii

/-! ## The packets -/

def clientLongPassword : ℕ := 0x00000001
def clientLongFlag : ℕ := 0x00000004
def clientConnectWithDb : ℕ := 0x00000008
def clientProtocol41 : ℕ := 0x00000200
def clientSsl : ℕ := 0x00000800
def clientSecureConnection : ℕ := 0x00008000
def clientPluginAuth : ℕ := 0x00080000
def clientConnectAttrs : ℕ := 0x00100000
def clientPluginAuthLenencClientData : ℕ := 0x00200000

def gatewayConnectionId : ℕ := 1
def maxPacketPayloadLen : ℕ := 16 * 1024 * 1024
def handshakeResponsePrefixLen : ℕ := 4 + 4 + 1 + 23
def handshakeReservedBytes : Bytes := List.replicate 23 nul
def protocolVersion10 : UInt8 := 10
def utf8mb4GeneralCi : UInt8 := 45
def okStatusAutocommit : Bytes := [0x02, 0x00]
def gatewayAuthSeedLen : ℕ := 20
def authSeedPart1Len : ℕ := 8

def nativePasswordPlugin : Text := ⟨ascii "mysql_native_password", by decide⟩

def cachingSha2PasswordPlugin : Text := ⟨ascii "caching_sha2_password", by decide⟩

def gatewayAuthPlugin : Text := nativePasswordPlugin

inductive GatewayFlavor
  | mysql | mariadb
  deriving DecidableEq

def GatewayFlavor.serverVersion : GatewayFlavor → Text
  | mysql => ⟨ascii "8.0.11", by decide⟩
  | mariadb => ⟨ascii "5.5.5-10.11.0-MariaDB", by decide⟩

structure MariadbRoute where
  username : Text
  database : Text
  authResponse : Bytes
  characterSet : UInt8
  deriving DecidableEq

structure BackendHandshake where
  authSeed : Bytes
  authPlugin : Text
  deriving DecidableEq

/-! ## Writing -/

/-- The capabilities that the gateway offers. -/
def gatewayCapabilities (tlsAvailable : Bool) : ℕ :=
  let capabilities := clientLongPassword ||| clientLongFlag ||| clientProtocol41 |||
    clientSecureConnection ||| clientPluginAuth ||| clientConnectWithDb
  if tlsAvailable then capabilities ||| clientSsl else capabilities

def gatewayHandshakePayload (gatewaySeed : Bytes) (flavor : GatewayFlavor) (tlsAvailable : Bool) :
    Except MariadbProxyError Bytes :=
  if gatewaySeed.length < gatewayAuthSeedLen then .error .malformedPacket
  else
    let seed1 := gatewaySeed.take authSeedPart1Len
    let seed2 := (gatewaySeed.take gatewayAuthSeedLen).drop authSeedPart1Len
    let capabilities := gatewayCapabilities tlsAvailable
    .ok ([protocolVersion10] ++ flavor.serverVersion.bytes ++ [nul] ++
      littleEndian 4 gatewayConnectionId ++ seed1 ++ [nul] ++
      littleEndian 2 (capabilities % 2 ^ 16) ++ [utf8mb4GeneralCi] ++ okStatusAutocommit ++
      littleEndian 2 (capabilities >>> 16 % 2 ^ 16) ++ [(seed1.length + seed2.length + 1).toUInt8] ++
      List.replicate 10 nul ++ seed2 ++ [nul] ++ gatewayAuthPlugin.bytes ++ [nul])

/-- The capabilities that the gateway asks for. -/
def responseCapabilities : ℕ :=
  clientLongPassword ||| clientLongFlag ||| clientProtocol41 ||| clientSecureConnection |||
    clientPluginAuth ||| clientConnectWithDb ||| clientConnectAttrs

/-- The response with a token. -/
def responsePayload (route : MariadbRoute) (authResponse : Bytes) (authPlugin : Text) : Bytes :=
  littleEndian 4 responseCapabilities ++ littleEndian 4 maxPacketPayloadLen ++
    [route.characterSet] ++ handshakeReservedBytes ++ route.username.bytes ++ [nul] ++
    [authResponse.length.toUInt8] ++ authResponse ++ route.database.bytes ++ [nul] ++
    authPlugin.bytes ++ [nul] ++ [nul]

section Respond

variable (hex : Hex) (sha1 : Digest 20) (sha256 : Digest 32) (handshake : BackendHandshake)

variable (route : MariadbRoute) (gatewaySeed : Bytes) (nativePasswordSha1Stage2Hex : List Char)

variable (backendPassword : Option Text)

/-- The token for the plugin of the backend. -/
def backendToken : Except MariadbProxyError Bytes :=
  if handshake.authPlugin = nativePasswordPlugin then
    deriveNativeBackendToken hex sha1 route.authResponse gatewaySeed handshake.authSeed
      nativePasswordSha1Stage2Hex
  else
    match backendPassword with
    | some password => .ok (cachingSha2PasswordToken sha256 password handshake.authSeed)
    | none => .error .missingBackendPassword

/-- The public client is authenticated before anything the backend has said is trusted. -/
def backendHandshakeResponse : Except MariadbProxyError Bytes := do
  let _ ← deriveNativeBackendToken hex sha1 route.authResponse gatewaySeed gatewaySeed
    nativePasswordSha1Stage2Hex
  if handshake.authPlugin ≠ nativePasswordPlugin ∧
      handshake.authPlugin ≠ cachingSha2PasswordPlugin then
    .error (.unsupportedBackendAuth handshake.authPlugin)
  else
    let authResponse ← backendToken hex sha1 sha256 handshake route gatewaySeed
      nativePasswordSha1Stage2Hex backendPassword
    .ok (responsePayload route authResponse handshake.authPlugin)

end Respond

/-! ## Reading -/

abbrev PacketReader := Cursor (Halt MariadbProxyError)

def malformed {α : Type} : PacketReader α := Cursor.raise .malformedPacket

/-- `get(start..end)`. -/
def getRange (bytes : Bytes) (start stop : ℕ) : Option Bytes :=
  if start ≤ stop ∧ stop ≤ bytes.length then some ((bytes.drop start).take (stop - start)) else none

/-- `[bytes[0], …, bytes[n - 1]]`. -/
def firstBytes (bytes : Bytes) : ℕ → PacketReader Bytes
  | 0 => pure []
  | n + 1 => do
    let front ← firstBytes bytes n
    let byte ← Cursor.index bytes n
    pure (front ++ [byte])

def readLe (width offset : ℕ) : PacketReader ℕ := do
  let payload ← Cursor.input
  match getRange payload offset (offset + width) with
  | none => malformed
  | some bytes => do
    let first ← firstBytes bytes width
    pure (fromLittleEndian first)

def readU16Le (offset : ℕ) : PacketReader ℕ := readLe 2 offset

def readU32Le (offset : ℕ) : PacketReader ℕ := readLe 4 offset

def take (len : ℕ) : PacketReader Bytes :=
  Cursor.takeBytes (.error .malformedPacket) (.error .malformedPacket) len

/-- The text in front of the first NUL of `rest`. -/
def nullString (rest : Bytes) : PacketReader Text :=
  match rest.findIdx? (· == nul) with
  | none => malformed
  | some len => do
    let value ← Cursor.sliceTo rest len
    match Text.fromUtf8 value with
    | none => malformed
    | some text => do
      Cursor.skip (len + 1)
      pure text

def readNullString : PacketReader Text := do
  let payload ← Cursor.input
  let offset ← Cursor.offset
  if payload.length < offset then malformed else nullString (payload.drop offset)

def readLenencInt : PacketReader ℕ := do
  let first ← Cursor.nextByte (.error .malformedPacket)
  if first = 0xfc then do
    let offset ← Cursor.offset
    let value ← readU16Le offset
    Cursor.skip 2
    pure value
  else if first = 0xfd then do
    let bytes ← take 3
    let first ← firstBytes bytes 3
    pure (fromLittleEndian (first ++ [0]))
  else if first = 0xfe then do
    let bytes ← take 8
    let first ← firstBytes bytes 8
    pure (fromLittleEndian first)
  else pure first.toNat

def readAuthResponse (capabilities : ℕ) : PacketReader Bytes :=
  if capabilities &&& clientPluginAuthLenencClientData ≠ 0 then do
    let len ← readLenencInt
    take len
  else if capabilities &&& clientSecureConnection ≠ 0 then do
    let len ← Cursor.nextByte (.error .malformedPacket)
    take len.toNat
  else do
    let text ← readNullString
    pure text.bytes

def readDatabase (capabilities : ℕ) : PacketReader Text :=
  if capabilities &&& clientConnectWithDb ≠ 0 then readNullString else pure ⟨[], rfl⟩

def checkPlugin (capabilities : ℕ) : PacketReader Unit := do
  let payload ← Cursor.input
  let offset ← Cursor.offset
  if capabilities &&& clientPluginAuth ≠ 0 ∧ offset < payload.length then do
    let plugin ← readNullString
    if plugin ≠ gatewayAuthPlugin then Cursor.raise .nativePasswordPluginRequired else pure ()
  else pure ()

/-- The response behind its fixed part. -/
def readRoute (capabilities : ℕ) : PacketReader MariadbRoute := do
  let username ← readNullString
  if username.bytes.isEmpty then malformed
  else do
    let authResponse ← readAuthResponse capabilities
    if authResponse.isEmpty then Cursor.raise .missingPassword
    else do
      let database ← readDatabase capabilities
      checkPlugin capabilities
      let payload ← Cursor.input
      let characterSet ← Cursor.index payload 8
      pure ⟨username, database, authResponse, characterSet⟩

def clientHandshakeResponse : PacketReader MariadbRoute := do
  let payload ← Cursor.input
  if payload.length < 36 then malformed
  else do
    let capabilities ← readU32Le 0
    Cursor.skip handshakeResponsePrefixLen
    readRoute capabilities

def parseClientHandshakeResponse (payload : Bytes) : Except (Halt MariadbProxyError) MariadbRoute :=
  clientHandshakeResponse.parse payload

def trimTrailingNuls (bytes : Bytes) : Bytes := bytes.rdropWhile (· == nul)

/-- The second part of the seed, if there is one. -/
def readSeed (part1 : Bytes) (authDataLen : ℕ) : PacketReader Bytes := do
  let payload ← Cursor.input
  let offset ← Cursor.offset
  let part2Len := max (authDataLen - authSeedPart1Len) 13
  if offset < payload.length then do
    let remaining := payload.length - offset
    let readLen := min remaining part2Len
    let part2 ← take readLen
    pure (trimTrailingNuls (part1 ++ part2))
  else pure part1

def readPlugin (capabilities : ℕ) : PacketReader Text := do
  let payload ← Cursor.input
  let offset ← Cursor.offset
  if capabilities &&& clientPluginAuth ≠ 0 ∧ offset < payload.length then readNullString
  else pure nativePasswordPlugin

/-- The greeting behind its lower capabilities. -/
def readExtended (part1 : Bytes) (lowerCapabilities : ℕ) : PacketReader BackendHandshake := do
  Cursor.skip (1 + 2)
  let offset ← Cursor.offset
  let upperCapabilities ← readU16Le offset
  Cursor.skip 2
  let capabilities := lowerCapabilities ||| upperCapabilities <<< 16
  let authDataLen ← Cursor.nextByte (.error .malformedPacket)
  Cursor.skip 10
  let seed ← readSeed part1 authDataLen.toNat
  let authPlugin ← readPlugin capabilities
  pure ⟨seed, authPlugin⟩

/-- The greeting behind its first byte. -/
def readGreeting : PacketReader BackendHandshake := do
  let _serverVersion ← readNullString
  Cursor.skip 4
  let part1 ← take authSeedPart1Len
  Cursor.skip 1
  let offset ← Cursor.offset
  let lowerCapabilities ← readU16Le offset
  Cursor.skip 2
  let payload ← Cursor.input
  let offset ← Cursor.offset
  if payload.length ≤ offset then pure ⟨part1, nativePasswordPlugin⟩
  else readExtended part1 lowerCapabilities

def backendHandshake : PacketReader BackendHandshake := do
  let payload ← Cursor.input
  if payload.length < 34 then malformed
  else do
    let version ← Cursor.index payload 0
    if version ≠ protocolVersion10 then malformed
    else do
      Cursor.skip 1
      readGreeting

def parseBackendHandshake (payload : Bytes) : Except (Halt MariadbProxyError) BackendHandshake :=
  backendHandshake.parse payload

/-! ## Indices -/

section Range

variable {payload bytes : Bytes}

theorem length_getRange {range : Bytes} {start stop : ℕ}
    (h : getRange bytes start stop = some range) : range.length = stop - start := by
  rw [getRange] at h
  split at h
  · next hrange =>
    obtain rfl := Option.some.inj h
    rw [List.length_take, List.length_drop]
    omega
  · cases h

theorem inRange_firstBytes : ∀ {n : ℕ}, n ≤ bytes.length →
    (firstBytes bytes n).InRange payload
  | 0, _ => inRange_pure _
  | _ + 1, h =>
    (inRange_firstBytes (Nat.le_of_succ_le h)).bind fun _ _ _ _ =>
      (inRange_index h).bind fun _ _ _ _ => inRange_pure _

theorem inRange_readLe (width offset : ℕ) : (readLe width offset).InRange payload := by
  refine inRange_input_bind ?_
  cases hrange : getRange payload offset (offset + width) with
  | none => exact inRange_raise _
  | some bytes =>
    have hlength := length_getRange hrange
    exact (inRange_firstBytes (by omega)).bind fun _ _ _ _ => inRange_pure _

theorem inRange_take (len : ℕ) : (take len).InRange payload := inRange_takeBytes _ _ _

theorem inRange_nullString (rest : Bytes) : (nullString rest).InRange payload := by
  rw [nullString]
  cases hfind : rest.findIdx? (· == nul) with
  | none => exact inRange_raise _
  | some len =>
    have hlen := (List.findIdx?_eq_some_iff_getElem.mp hfind).1
    refine (inRange_sliceTo hlen.le).bind fun value _ _ _ => ?_
    cases Text.fromUtf8 value with
    | none => exact inRange_raise _
    | some text => exact (inRange_skip _).bind fun _ _ _ _ => inRange_pure _

theorem inRange_readNullString : readNullString.InRange payload :=
  inRange_input_bind (inRange_offset.bind fun _ _ _ _ =>
    inRange_ite _ (fun _ => inRange_raise _) fun _ => inRange_nullString _)

theorem inRange_readLenencInt : readLenencInt.InRange payload := by
  -- The bytes of a long number are all that were taken for it.
  have hlong : ∀ (len : ℕ) (value : Bytes → ℕ), Cursor.InRange (ε := MariadbProxyError)
      (take len >>= fun bytes => firstBytes bytes len >>= fun first => pure (value first))
      payload :=
    fun len value => (inRange_take len).bind fun bytes _ _ htake =>
      (inRange_firstBytes (length_takeBytes htake).ge).bind fun _ _ _ _ =>
        inRange_pure _
  refine (inRange_nextByte _).bind fun first _ _ _ => ?_
  refine inRange_ite _ (fun _ => ?_) fun _ =>
    inRange_ite _ (fun _ => hlong 3 _) fun _ =>
      inRange_ite _ (fun _ => hlong 8 _) fun _ => inRange_pure _
  exact inRange_offset.bind fun _ _ _ _ => (inRange_readLe _ _).bind fun _ _ _ _ =>
    (inRange_skip _).bind fun _ _ _ _ => inRange_pure _

variable (capabilities : ℕ)

theorem inRange_readAuthResponse : (readAuthResponse capabilities).InRange payload := by
  refine inRange_ite _ (fun _ => ?_) fun _ =>
    inRange_ite _ (fun _ => ?_) fun _ => ?_
  · exact inRange_readLenencInt.bind fun _ _ _ _ => inRange_take _
  · exact (inRange_nextByte _).bind fun _ _ _ _ => inRange_take _
  · exact inRange_readNullString.bind fun _ _ _ _ => inRange_pure _

theorem inRange_readDatabase : (readDatabase capabilities).InRange payload :=
  inRange_ite _ (fun _ => inRange_readNullString) fun _ => inRange_pure _

theorem inRange_checkPlugin : (checkPlugin capabilities).InRange payload :=
  inRange_input_bind (inRange_offset.bind fun _ _ _ _ =>
    inRange_ite _
      (fun _ => inRange_readNullString.bind fun _ _ _ _ =>
        inRange_ite _ (fun _ => inRange_raise _) fun _ => inRange_pure _)
      fun _ => inRange_pure _)

theorem inRange_readRoute (h : 8 < payload.length) : (readRoute capabilities).InRange payload := by
  refine inRange_readNullString.bind fun username _ _ _ => inRange_ite _
    (fun _ => inRange_raise _) fun _ => ?_
  refine (inRange_readAuthResponse _).bind fun authResponse _ _ _ => inRange_ite _
    (fun _ => inRange_raise _) fun _ => ?_
  exact (inRange_readDatabase _).bind fun _ _ _ _ => (inRange_checkPlugin _).bind fun _ _ _ _ =>
    inRange_input_bind ((inRange_index h).bind fun _ _ _ _ => inRange_pure _)

theorem inRange_clientHandshakeResponse : clientHandshakeResponse.InRange payload :=
  inRange_input_bind (inRange_ite _ (fun _ => inRange_raise _) fun hlength =>
    (inRange_readLe _ _).bind fun capabilities _ _ _ => (inRange_skip _).bind fun _ _ _ _ =>
      inRange_readRoute capabilities (by omega))

theorem inRange_readSeed (part1 : Bytes) (authDataLen : ℕ) :
    (readSeed part1 authDataLen).InRange payload :=
  inRange_input_bind (inRange_offset.bind fun _ _ _ _ =>
    inRange_ite _ (fun _ => (inRange_take _).bind fun _ _ _ _ => inRange_pure _)
      fun _ => inRange_pure _)

theorem inRange_readPlugin : (readPlugin capabilities).InRange payload :=
  inRange_input_bind (inRange_offset.bind fun _ _ _ _ =>
    inRange_ite _ (fun _ => inRange_readNullString) fun _ => inRange_pure _)

theorem inRange_readExtended (part1 : Bytes) (lowerCapabilities : ℕ) :
    (readExtended part1 lowerCapabilities).InRange payload :=
  (inRange_skip _).bind fun _ _ _ _ => inRange_offset.bind fun _ _ _ _ =>
    (inRange_readLe _ _).bind fun _ _ _ _ => (inRange_skip _).bind fun _ _ _ _ =>
    (inRange_nextByte _).bind fun _ _ _ _ => (inRange_skip _).bind fun _ _ _ _ =>
    (inRange_readSeed _ _).bind fun _ _ _ _ => (inRange_readPlugin _).bind fun _ _ _ _ =>
    inRange_pure _

theorem inRange_readGreeting : readGreeting.InRange payload :=
  inRange_readNullString.bind fun _ _ _ _ => (inRange_skip _).bind fun _ _ _ _ =>
    (inRange_take _).bind fun _ _ _ _ => (inRange_skip _).bind fun _ _ _ _ =>
    inRange_offset.bind fun _ _ _ _ => (inRange_readLe _ _).bind fun _ _ _ _ =>
    (inRange_skip _).bind fun _ _ _ _ => inRange_input_bind
      (inRange_offset.bind fun _ _ _ _ => inRange_ite _
        (fun _ => inRange_pure _) fun _ => inRange_readExtended _ _)

theorem inRange_backendHandshake : backendHandshake.InRange payload :=
  inRange_input_bind (inRange_ite _ (fun _ => inRange_raise _) fun hlength =>
    (inRange_index (by omega)).bind fun _ _ _ _ =>
      inRange_ite _ (fun _ => inRange_raise _) fun _ =>
        (inRange_skip _).bind fun _ _ _ _ => inRange_readGreeting)

end Range

/-! ## Reading what is written -/

section Fields

variable {fits : ℕ → Prop} {payload : Bytes} {offset : ℕ}

/-- **A text without NUL** is read up to the one behind it. -/
theorem reads_readNullString {text : Text} (h : nul ∉ text.bytes) :
    readNullString.Reads fits (text.bytes ++ [nul]) text := by
  intro input offset rest _ hle hdrop
  have hfind : (text.bytes ++ [nul] ++ rest).findIdx? (· == nul) =
      some text.bytes.length := by
    rw [List.append_assoc, List.findIdx?_append, List.findIdx?_eq_none_iff.mpr]
    · simp [List.findIdx?_cons]
    · exact fun byte hbyte => beq_eq_false_iff_ne.mpr fun hnul => h (hnul ▸ hbyte)
  have htake : (text.bytes ++ [nul] ++ rest).take text.bytes.length = text.bytes := by
    rw [List.append_assoc, List.take_left]
  have hlen : text.bytes.length ≤ (text.bytes ++ [nul] ++ rest).length := by
    simp only [List.length_append]
    omega
  rw [readNullString, input_bind, offset_bind, if_neg (by omega), hdrop, nullString,
    hfind]
  simp only [Cursor.sliceTo, if_pos hlen, htake]
  rw [bind_apply (pure_apply _ _ _), Text.fromUtf8_bytes]
  change (Cursor.skip (text.bytes.length + 1) >>= fun _ => pure text) input offset = _
  rw [skip_bind, pure_apply, List.length_append, List.length_singleton]

theorem reads_take (front : Bytes) : (take front.length).Reads Cursor.inMemory front front :=
  reads_takeBytes _ _ front

theorem firstBytes_eq (bytes : Bytes) : ∀ {n : ℕ}, n ≤ bytes.length →
    firstBytes bytes n payload offset = .ok (bytes.take n, offset)
  | 0, _ => rfl
  | n + 1, h => by
    have hlt : n < bytes.length := h
    rw [firstBytes, bind_apply (firstBytes_eq bytes hlt.le), Cursor.index,
      List.getElem?_eq_getElem hlt, bind_apply (pure_apply _ _ _), pure_apply,
      List.take_append_getElem hlt]

/-- A number in its place. -/
theorem readLe_eq {width place n : ℕ} {rest : Bytes} (hplace : place ≤ payload.length)
    (hdrop : payload.drop place = littleEndian width n ++ rest) (hn : n < 256 ^ width) :
    readLe width place payload offset = .ok (n, offset) := by
  have hlength := congrArg List.length hdrop
  rw [List.length_drop, List.length_append, length_littleEndian] at hlength
  have hrange : getRange payload place (place + width) = some (littleEndian width n) := by
    have htake : (littleEndian width n ++ rest).take width = littleEndian width n :=
      List.take_left' (length_littleEndian width n)
    rw [getRange, if_pos (by omega), hdrop, Nat.add_sub_cancel_left, htake]
  have hfirst : firstBytes (littleEndian width n) width payload offset =
      .ok (littleEndian width n, offset) := by
    rw [firstBytes_eq _ (length_littleEndian width n).ge, List.take_of_length_le
      (length_littleEndian width n).le]
  rw [readLe, input_bind, hrange]
  change (firstBytes (littleEndian width n) width >>= fun first =>
    pure (fromLittleEndian first)) payload offset = _
  rw [bind_apply hfirst, pure_apply, fromLittleEndian_littleEndian,
    Nat.mod_eq_of_lt hn]

end Fields

/-- A text that can stand in front of a NUL. -/
def NulFree (text : Text) : Prop := nul ∉ text.bytes

instance (text : Text) : Decidable (NulFree text) := inferInstanceAs (Decidable (_ ∉ _))

theorem nulFree_nativePasswordPlugin : NulFree nativePasswordPlugin := by decide

theorem nulFree_serverVersion (flavor : GatewayFlavor) : NulFree flavor.serverVersion := by
  cases flavor <;> decide

/-! ## The response -/

/-- The token behind its length. -/
theorem reads_readAuthResponse {token : Bytes} (h : token.length = 20) :
    (readAuthResponse responseCapabilities).Reads Cursor.inMemory
      ([token.length.toUInt8] ++ token) token := by
  have hlenenc : ¬ responseCapabilities &&& clientPluginAuthLenencClientData ≠ 0 := by decide
  have hsecure : responseCapabilities &&& clientSecureConnection ≠ 0 := by decide
  rw [readAuthResponse, if_neg hlenenc, if_pos hsecure]
  refine (reads_nextByte _ _).bind ?_
  have hbyte : token.length.toUInt8.toNat = token.length := by
    rw [h]
    rfl
  rw [hbyte]
  exact reads_take token

theorem reads_readDatabase {database : Text} (h : NulFree database) :
    (readDatabase responseCapabilities).Reads Cursor.inMemory (database.bytes ++ [nul])
      database := by
  have hdb : responseCapabilities &&& clientConnectWithDb ≠ 0 := by decide
  rw [readDatabase, if_pos hdb]
  exact reads_readNullString h

variable {offset : ℕ} {payload rest : Bytes}

theorem checkPlugin_native (hle : offset ≤ payload.length)
    (hdrop : payload.drop offset = nativePasswordPlugin.bytes ++ [nul] ++ rest) :
    checkPlugin responseCapabilities payload offset =
      .ok ((), offset + (nativePasswordPlugin.bytes ++ [nul]).length) := by
  have hlt : responseCapabilities &&& clientPluginAuth ≠ 0 ∧ offset < payload.length := by
    refine ⟨by decide, ?_⟩
    have hlength := congrArg List.length hdrop
    simp only [List.length_drop, List.length_append, List.length_singleton] at hlength
    omega
  have hread := @reads_readNullString (fun _ => True) _ nulFree_nativePasswordPlugin payload offset
    rest trivial hle hdrop
  rw [checkPlugin, input_bind, offset_bind, if_pos hlt, bind_apply hread]
  rfl

/-- The response behind its fixed part. -/
def responseTail (route : MariadbRoute) (token : Bytes) : Bytes :=
  (route.username.bytes ++ [nul]) ++ (([token.length.toUInt8] ++ token) ++
    ((route.database.bytes ++ [nul]) ++
      ((nativePasswordPlugin.bytes ++ [nul]) ++ [nul])))

def responseHead (route : MariadbRoute) : Bytes :=
  littleEndian 4 responseCapabilities ++ (littleEndian 4 maxPacketPayloadLen ++
    ([route.characterSet] ++ handshakeReservedBytes))

variable (route : MariadbRoute)

theorem responsePayload_eq (token : Bytes) :
    responsePayload route token nativePasswordPlugin =
      responseHead route ++ responseTail route token := by
  simp only [responsePayload, responseHead, responseTail, List.append_assoc]

theorem length_responseHead : (responseHead route).length = handshakeResponsePrefixLen := by
  simp only [responseHead, List.length_append, length_littleEndian]
  rfl

/-- **The response is read as it was meant.** -/
theorem parse_responsePayload {route : MariadbRoute} {token : Bytes}
    (huser : NulFree route.username)
    (hnonempty : route.username.bytes ≠ []) (hdatabase : NulFree route.database)
    (htoken : token.length = 20)
    (hsize : (responsePayload route token nativePasswordPlugin).length ≤ usizeMax) :
    parseClientHandshakeResponse (responsePayload route token nativePasswordPlugin) =
      .ok { route with authResponse := token } := by
  rw [responsePayload_eq] at hsize ⊢
  generalize hpayload : responseHead route ++ responseTail route token = payload at hsize
  have hhead := length_responseHead route
  have hcapabilities : payload.drop 0 = littleEndian 4 responseCapabilities ++
      ((littleEndian 4 maxPacketPayloadLen ++ ([route.characterSet] ++ handshakeReservedBytes)) ++
        responseTail route token) := by
    rw [← hpayload, List.drop_zero, responseHead, List.append_assoc]
  have hcharset : payload[8]? = some route.characterSet := by
    rw [← hpayload]
    rfl
  -- Field after field, from the fixed part on.
  have hdrop₀ : payload.drop (0 + handshakeResponsePrefixLen) = responseTail route token := by
    rw [← hpayload, Nat.zero_add, ← hhead, List.drop_left]
  have hle₀ : 0 + handshakeResponsePrefixLen ≤ payload.length := by
    rw [← hpayload, List.length_append, hhead]
    omega
  obtain ⟨hdrop₁, hle₁⟩ := drop_field hle₀ hdrop₀
  obtain ⟨hdrop₂, hle₂⟩ := drop_field hle₁ hdrop₁
  obtain ⟨hdrop₃, hle₃⟩ := drop_field hle₂ hdrop₂
  have husername : readNullString.Reads Cursor.inMemory (route.username.bytes ++ [nul])
      route.username := reads_readNullString huser
  have hlong : ¬ payload.length < 36 := by
    simp only [List.length_append, List.length_singleton] at hle₂
    have hprefix : handshakeResponsePrefixLen = 32 := rfl
    omega
  rw [parseClientHandshakeResponse, Cursor.parse, clientHandshakeResponse, input_bind, if_neg hlong, readU32Le,
    bind_apply (readLe_eq (Nat.zero_le _) hcapabilities (by decide)), skip_bind,
    readRoute, bind_apply (husername hsize hle₀ hdrop₀),
    if_neg (by simpa using hnonempty),
    bind_apply (reads_readAuthResponse htoken hsize hle₁ hdrop₁),
    if_neg (by simp [← List.length_eq_zero_iff, htoken]),
    bind_apply (reads_readDatabase hdatabase hsize hle₂ hdrop₂),
    bind_apply (checkPlugin_native hle₃ hdrop₃), input_bind, Cursor.index, hcharset]
  rfl

/-! ## The greeting -/

theorem trimTrailingNuls_append {seed : Bytes} (h : seed.getLast? ≠ some nul) :
    trimTrailingNuls (seed ++ [nul]) = seed := by
  rw [trimTrailingNuls, List.rdropWhile_concat_pos _ _ _ (by decide), List.rdropWhile_eq_self_iff]
  intro hne hlast
  exact h (by rw [List.getLast?_eq_some_getLast hne, beq_iff_eq.mp hlast])

/-- The second part of the seed with its padding. -/
theorem readSeed_eq {part1 part2 : Bytes} (hsize : payload.length ≤ usizeMax)
    (hle : offset ≤ payload.length) (hdrop : payload.drop offset = part2 ++ [nul] ++ rest)
    (hpart2 : part2.length = 12) (hseed : (part1 ++ part2).getLast? ≠ some nul) :
    readSeed part1 21 payload offset =
      .ok (part1 ++ part2, offset + (part2 ++ [nul]).length) := by
  have hlength := congrArg List.length hdrop
  simp only [List.length_drop, List.length_append, List.length_singleton] at hlength
  have hlen : min (payload.length - offset) (max (21 - authSeedPart1Len) 13) =
      (part2 ++ [nul]).length := by
    have hpart1 : authSeedPart1Len = 8 := rfl
    simp only [List.length_append, List.length_singleton]
    omega
  rw [readSeed, input_bind, offset_bind, if_pos (by omega), hlen,
    bind_apply (reads_take _ hsize hle hdrop), pure_apply, ← List.append_assoc,
    trimTrailingNuls_append hseed]

theorem readPlugin_native {capabilities : ℕ} (hle : offset ≤ payload.length)
    (hdrop : payload.drop offset = nativePasswordPlugin.bytes ++ [nul] ++ rest)
    (hplugin : capabilities &&& clientPluginAuth ≠ 0) :
    readPlugin capabilities payload offset =
      .ok (nativePasswordPlugin, offset + (nativePasswordPlugin.bytes ++ [nul]).length) := by
  have hlt : offset < payload.length := by
    have hlength := congrArg List.length hdrop
    simp only [List.length_drop, List.length_append, List.length_singleton] at hlength
    omega
  rw [readPlugin, input_bind, offset_bind, if_pos ⟨hplugin, hlt⟩]
  exact @reads_readNullString (fun _ => True) _ nulFree_nativePasswordPlugin payload offset rest
    trivial hle hdrop

/-- The greeting behind its lower capabilities. -/
def greetingTail (seed : Bytes) (tlsAvailable : Bool) : Bytes :=
  ([utf8mb4GeneralCi] ++ okStatusAutocommit) ++
    (littleEndian 2 (gatewayCapabilities tlsAvailable >>> 16 % 2 ^ 16) ++
      ([21] ++ (List.replicate 10 nul ++ ((seed.drop authSeedPart1Len ++ [nul]) ++
        (nativePasswordPlugin.bytes ++ [nul] ++ [])))))

def greeting (seed : Bytes) (flavor : GatewayFlavor) (tlsAvailable : Bool) : Bytes :=
  [protocolVersion10] ++ ((flavor.serverVersion.bytes ++ [nul]) ++
    (littleEndian 4 gatewayConnectionId ++ (seed.take authSeedPart1Len ++ ([nul] ++
      (littleEndian 2 (gatewayCapabilities tlsAvailable % 2 ^ 16) ++
        greetingTail seed tlsAvailable)))))

section Greeting

variable {seed : Bytes} {flavor : GatewayFlavor} {tlsAvailable : Bool}

theorem gatewayHandshakePayload_eq (h : seed.length = 20) :
    gatewayHandshakePayload seed flavor tlsAvailable = .ok (greeting seed flavor tlsAvailable) := by
  have hlong : ¬ seed.length < gatewayAuthSeedLen := by
    rw [h]
    decide
  have htake : seed.take gatewayAuthSeedLen = seed := List.take_of_length_le (by rw [h]; decide)
  have hlengths : (seed.take authSeedPart1Len).length + (seed.drop authSeedPart1Len).length + 1 =
      21 := by
    rw [← List.length_append, List.take_append_drop, h]
  have hbyte : (21 : ℕ).toUInt8 = 21 := rfl
  rw [gatewayHandshakePayload, if_neg hlong]
  simp only [htake, hlengths, hbyte, greeting, greetingTail, gatewayAuthPlugin, List.append_assoc,
    List.append_nil]

theorem length_greeting_le (h : seed.length = 20) :
    34 ≤ (greeting seed flavor tlsAvailable).length ∧
      (greeting seed flavor tlsAvailable).length ≤ usizeMax := by
  have hversion : flavor.serverVersion.bytes.length ≤ 21 := by
    cases flavor <;> decide
  have hplugin : nativePasswordPlugin.bytes.length = 21 := rfl
  have hstatus : okStatusAutocommit.length = 2 := rfl
  have hpart1 : authSeedPart1Len = 8 := rfl
  simp only [greeting, greetingTail, List.length_append, length_littleEndian, List.length_singleton,
    List.length_replicate, List.length_take, List.length_drop, List.length_nil, h, hplugin, hstatus,
    hpart1, usizeMax]
  omega

/-- The capabilities of the greeting in their two halves. -/
theorem gatewayCapabilities_halves (tlsAvailable : Bool) :
    (gatewayCapabilities tlsAvailable % 2 ^ 16 |||
      (gatewayCapabilities tlsAvailable >>> 16 % 2 ^ 16) <<< 16) &&& clientPluginAuth ≠ 0 := by
  cases tlsAvailable <;> decide

theorem readExtended_eq (hsize : payload.length ≤ usizeMax) (hle : offset ≤ payload.length)
    (hdrop : payload.drop offset = greetingTail seed tlsAvailable) (h : seed.length = 20)
    (hseed : seed.getLast? ≠ some nul) :
    (readExtended (seed.take authSeedPart1Len) (gatewayCapabilities tlsAvailable % 2 ^ 16)
      payload offset).map Prod.fst = .ok ⟨seed, nativePasswordPlugin⟩ := by
  obtain ⟨hdrop₁, hle₁⟩ := @drop_count _ _ _ _ (1 + 2) hle hdrop rfl
  obtain ⟨hdrop₂, hle₂⟩ := drop_count hle₁ hdrop₁ (length_littleEndian 2 _)
  obtain ⟨hdrop₃, hle₃⟩ := drop_field hle₂ hdrop₂
  obtain ⟨hdrop₄, hle₄⟩ := drop_count hle₃ hdrop₃ List.length_replicate
  obtain ⟨hdrop₅, hle₅⟩ := drop_field hle₄ hdrop₄
  have hpart2 : (seed.drop authSeedPart1Len).length = 12 := by
    rw [List.length_drop, h]
    rfl
  have hwhole : seed.take authSeedPart1Len ++ seed.drop authSeedPart1Len = seed :=
    List.take_append_drop _ _
  have hread := readSeed_eq hsize hle₄ hdrop₄ hpart2 (hwhole.symm ▸ hseed)
  rw [hwhole] at hread
  have hbyte : (Cursor.nextByte (.error .malformedPacket) :
      PacketReader UInt8).Reads Cursor.inMemory [21] 21 := reads_nextByte _ _
  have hplugin := readPlugin_native hle₅ hdrop₅ (gatewayCapabilities_halves tlsAvailable)
  rw [readExtended, skip_bind, offset_bind, readU16Le,
    bind_apply (readLe_eq hle₁ hdrop₁ (Nat.mod_lt _ (by decide))), skip_bind,
    bind_apply (hbyte hsize hle₂ hdrop₂), skip_bind]
  change (Except.map Prod.fst ((readSeed (seed.take authSeedPart1Len) 21 >>= _) payload
    (offset + (1 + 2) + 2 + [21].length + 10))) = _
  rw [bind_apply hread, bind_apply hplugin]
  rfl

/-- **The greeting is read as it was meant.** -/
theorem parse_greeting (h : seed.length = 20) (hseed : seed.getLast? ≠ some nul) :
    parseBackendHandshake (greeting seed flavor tlsAvailable) = .ok ⟨seed, nativePasswordPlugin⟩ := by
  obtain ⟨hlong, hsize⟩ := @length_greeting_le seed flavor tlsAvailable h
  have hversion : (greeting seed flavor tlsAvailable)[0]? = some protocolVersion10 := rfl
  have hdrop : (greeting seed flavor tlsAvailable).drop (0 + 1) =
      (flavor.serverVersion.bytes ++ [nul]) ++ (littleEndian 4 gatewayConnectionId ++
        (seed.take authSeedPart1Len ++ ([nul] ++
          (littleEndian 2 (gatewayCapabilities tlsAvailable % 2 ^ 16) ++
            greetingTail seed tlsAvailable)))) := rfl
  have hle : 0 + 1 ≤ (greeting seed flavor tlsAvailable).length := by omega
  generalize greeting seed flavor tlsAvailable = payload at hlong hsize hversion hdrop hle ⊢
  obtain ⟨hdrop₁, hle₁⟩ := drop_field hle hdrop
  obtain ⟨hdrop₂, hle₂⟩ := drop_count hle₁ hdrop₁ (length_littleEndian 4 _)
  have hpart1 : (seed.take authSeedPart1Len).length = authSeedPart1Len := by
    rw [List.length_take, h]
    rfl
  obtain ⟨hdrop₃, hle₃⟩ := drop_count hle₂ hdrop₂ hpart1
  obtain ⟨hdrop₄, hle₄⟩ := @drop_count _ _ [nul] _ 1 hle₃ hdrop₃ rfl
  obtain ⟨hdrop₅, hle₅⟩ := drop_count hle₄ hdrop₄ (length_littleEndian 2 _)
  have hname : readNullString.Reads Cursor.inMemory (flavor.serverVersion.bytes ++ [nul])
      flavor.serverVersion := reads_readNullString (nulFree_serverVersion flavor)
  have hseed1 := reads_take (seed.take authSeedPart1Len) hsize hle₂ hdrop₂
  rw [hpart1] at hseed1
  have hmore : ¬ payload.length ≤ 0 + 1 + (flavor.serverVersion.bytes ++ [nul]).length + 4 +
      authSeedPart1Len + 1 + 2 := by
    intro hend
    rw [List.drop_eq_nil_of_le hend] at hdrop₅
    cases hdrop₅
  have htail := readExtended_eq hsize hle₅ hdrop₅ h hseed
  rw [parseBackendHandshake, Cursor.parse, backendHandshake, input_bind, if_neg (by omega),
    Cursor.index, hversion, bind_apply (pure_apply _ _ _), if_neg (by simp),
    skip_bind, readGreeting, bind_apply (hname hsize hle hdrop), skip_bind,
    bind_apply hseed1, skip_bind, offset_bind, readU16Le,
    bind_apply (readLe_eq hle₄ hdrop₄ (Nat.mod_lt _ (by decide))), skip_bind,
    input_bind, offset_bind, if_neg hmore, htail]

end Greeting

/-! ## The two of them -/

variable {hex : Hex} {sha1 : Digest 20} {sha256 : Digest 32}

theorem backendHandshakeResponse_eq_ok {handshake : BackendHandshake} {route : MariadbRoute}
    {gatewaySeed : Bytes} {verifier : List Char} {backendPassword : Option Text}
    (h : backendHandshakeResponse hex sha1 sha256 handshake route gatewaySeed verifier backendPassword =
      .ok payload) :
    (∃ token, deriveNativeBackendToken hex sha1 route.authResponse gatewaySeed gatewaySeed verifier =
      .ok token) ∧
    ∃ authResponse, backendToken hex sha1 sha256 handshake route gatewaySeed verifier backendPassword =
      .ok authResponse ∧ payload = responsePayload route authResponse handshake.authPlugin := by
  obtain ⟨token, htoken, h⟩ := bind_eq_ok.mp h
  obtain ⟨-, h⟩ := ite_error_eq_ok.mp h
  obtain ⟨authResponse, hauth, h⟩ := bind_eq_ok.mp h
  exact ⟨⟨token, htoken⟩, authResponse, hauth, (Except.ok.inj h).symm⟩

/-- **The password proof is passed on.**  An honest token is keyed to the seed of the backend; a
token is accepted exactly if it proves the password under the seed of the gateway; and no response
is made for another one, whatever plugin the backend announces. -/
theorem native_password_relay (hex : Hex) (sha1 : Digest 20) (sha256 : Digest 32) :
    (∀ (password : Text) (gatewaySeed backendSeed : Bytes), password.bytes ≠ [] →
      deriveNativeBackendToken hex sha1 (nativePasswordToken sha1 password gatewaySeed) gatewaySeed
          backendSeed (nativePasswordSha1Stage2Hex hex sha1 password) =
        .ok (nativePasswordToken sha1 password backendSeed)) ∧
    (∀ (token gatewaySeed backendSeed stage2 : Bytes) (verifier : List Char),
      hexDecode20 hex verifier = .ok stage2 →
      ((∃ derived, deriveNativeBackendToken hex sha1 token gatewaySeed backendSeed verifier =
          .ok derived) ↔
        token.length = 20 ∧
          sha1.digest (xorBytes token (sha1.digest (gatewaySeed ++ stage2))) = stage2)) ∧
    ∀ (handshake : BackendHandshake) (route : MariadbRoute) (gatewaySeed payload : Bytes)
      (verifier : List Char) (backendPassword : Option Text),
      backendHandshakeResponse hex sha1 sha256 handshake route gatewaySeed verifier backendPassword =
        .ok payload →
      ∃ stage2, hexDecode20 hex verifier = .ok stage2 ∧ route.authResponse.length = 20 ∧
        sha1.digest (xorBytes route.authResponse (sha1.digest (gatewaySeed ++ stage2))) =
          stage2 := by
  refine ⟨fun password gatewaySeed backendSeed hpassword =>
    derive_nativePasswordToken hpassword gatewaySeed backendSeed, ?_, ?_⟩
  · intro token gatewaySeed backendSeed stage2 verifier hverifier
    constructor
    · rintro ⟨derived, hderived⟩
      obtain ⟨found, hfound, hproves, -⟩ := deriveNativeBackendToken_eq_ok.mp hderived
      obtain rfl : stage2 = found := Except.ok.inj (hverifier.symm.trans hfound)
      exact hproves
    · exact fun hproves =>
        ⟨_, deriveNativeBackendToken_eq_ok.mpr ⟨stage2, hverifier, hproves, rfl⟩⟩
  · intro handshake route gatewaySeed payload verifier backendPassword h
    obtain ⟨⟨token, htoken⟩, -⟩ := backendHandshakeResponse_eq_ok h
    obtain ⟨stage2, hverifier, hproves, -⟩ := deriveNativeBackendToken_eq_ok.mp htoken
    exact ⟨stage2, hverifier, hproves⟩

def examplePassword : Text := ⟨ascii "secret", by decide⟩

def exampleSeed : Bytes := ascii "12345678901234567890"

def exampleBackend : BackendHandshake := ⟨ascii "backend-seed-1234567", nativePasswordPlugin⟩

/-- The digest of the digest of the password, as the gateway has stored it. -/
def exampleVerifier : List Char := "14e65567abdb5135d0cfd9a70b3032c179a49ee7".toList

def exampleStage2 : Bytes := bigEndian 20 0x14e65567abdb5135d0cfd9a70b3032c179a49ee7

/-- SHA-1 on the password, on its digest, on the two challenges, and on the first of these. -/
def exampleSha1 : Digest 20 := .recorded 20 [
    (examplePassword.bytes, 0xe5e9fa1ba31ecd1ae84f75caaa474f3a663f05f4),
    (bigEndian 20 0xe5e9fa1ba31ecd1ae84f75caaa474f3a663f05f4, 0x14e65567abdb5135d0cfd9a70b3032c179a49ee7),
    (exampleSeed ++ exampleStage2, 0xea626a284397b1106b779e2974ee4e37bc78aea2),
    (exampleBackend.authSeed ++ exampleStage2, 0x3dc0a2474ed73785c27d8f2ac1a55c827292462b),
    (bigEndian 20 0xea626a284397b1106b779e2974ee4e37bc78aea2, 0x7c3bb37b937b9117b988a3d5992a329db8f6c39c)]

/-- No input of the examples is hashed with SHA-256. -/
def exampleSha256 : Digest 32 := .recorded 32 []

/-- A route whose token is honest. -/
def exampleRoute : MariadbRoute where
  username := ⟨ascii "tenant", by decide⟩
  database := ⟨ascii "shop", by decide⟩
  authResponse := nativePasswordToken exampleSha1 examplePassword exampleSeed
  characterSet := 45

/-- The token for the seed of the backend. -/
def exampleToken : Bytes := nativePasswordToken exampleSha1 examplePassword exampleBackend.authSeed

def examplePayload : Bytes := responsePayload exampleRoute exampleToken nativePasswordPlugin

theorem native_password_relay_secret :
    deriveNativeBackendToken hexLower exampleSha1 exampleRoute.authResponse exampleSeed
        exampleBackend.authSeed exampleVerifier = .ok exampleToken ∧
      (¬ ∃ derived, deriveNativeBackendToken hexLower exampleSha1 (List.replicate 20 0) exampleSeed
        exampleBackend.authSeed exampleVerifier = .ok derived) ∧
      backendHandshakeResponse hexLower exampleSha1 exampleSha256 exampleBackend exampleRoute
        exampleSeed exampleVerifier none = .ok examplePayload ∧
      ∃ stage2, hexDecode20 hexLower exampleVerifier = .ok stage2 ∧
        exampleRoute.authResponse.length = 20 ∧
        exampleSha1.digest (xorBytes exampleRoute.authResponse
          (exampleSha1.digest (exampleSeed ++ stage2))) = stage2 := by
  obtain ⟨hhonest, hproof, hresponse⟩ := native_password_relay hexLower exampleSha1 exampleSha256
  have hverifier : nativePasswordSha1Stage2Hex hexLower exampleSha1 examplePassword =
      exampleVerifier := by decide +kernel
  have hstage2 : hexDecode20 hexLower exampleVerifier = .ok exampleStage2 := by decide +kernel
  have hpayload : backendHandshakeResponse hexLower exampleSha1 exampleSha256 exampleBackend
      exampleRoute exampleSeed exampleVerifier none = .ok examplePayload := by decide +kernel
  refine ⟨?_, ?_, hpayload, hresponse _ _ _ _ _ _ hpayload⟩
  · rw [← hverifier]
    exact hhonest examplePassword exampleSeed exampleBackend.authSeed (by decide)
  · rw [hproof _ _ _ _ _ hstage2]
    decide +kernel

/-- **Encoders and parsers agree.**  A greeting is read back with its seed; a native response is read
back with its route and the token that was derived; and no payload makes a parser index out of
range. -/
theorem handshakes_agree (hex : Hex) (sha1 : Digest 20) (sha256 : Digest 32) :
    (∀ (seed : Bytes) (flavor : GatewayFlavor) (tlsAvailable : Bool), seed.length = 20 →
      seed.getLast? ≠ some Ascii.nul → ∃ payload,
        gatewayHandshakePayload seed flavor tlsAvailable = .ok payload ∧
        parseBackendHandshake payload = .ok ⟨seed, nativePasswordPlugin⟩) ∧
    (∀ (handshake : BackendHandshake) (route : MariadbRoute) (gatewaySeed payload : Bytes)
      (verifier : List Char) (backendPassword : Option Text),
      NulFree route.username → route.username.bytes ≠ [] → NulFree route.database →
      handshake.authPlugin = nativePasswordPlugin →
      backendHandshakeResponse hex sha1 sha256 handshake route gatewaySeed verifier backendPassword =
        .ok payload → payload.length ≤ usizeMax →
      ∃ token, deriveNativeBackendToken hex sha1 route.authResponse gatewaySeed handshake.authSeed
          verifier = .ok token ∧
        parseClientHandshakeResponse payload =
          .ok ⟨route.username, route.database, token, route.characterSet⟩) ∧
    ∀ payload : Bytes, parseClientHandshakeResponse payload ≠ .error .outOfRange ∧
      parseBackendHandshake payload ≠ .error .outOfRange := by
  refine ⟨fun seed flavor tlsAvailable hlength hseed =>
    ⟨_, gatewayHandshakePayload_eq hlength, parse_greeting hlength hseed⟩, ?_, fun payload =>
    ⟨inRange_clientHandshakeResponse.parse, inRange_backendHandshake.parse⟩⟩
  intro handshake route gatewaySeed payload verifier backendPassword huser hnonempty hdatabase
    hplugin h hsize
  obtain ⟨-, token, htoken, rfl⟩ := backendHandshakeResponse_eq_ok h
  unfold backendToken at htoken
  rw [if_pos hplugin] at htoken
  rw [hplugin] at hsize ⊢
  exact ⟨token, htoken,
    parse_responsePayload huser hnonempty hdatabase (length_derived htoken) hsize⟩

theorem handshakes_agree_secret :
    (∃ payload, gatewayHandshakePayload exampleSeed .mariadb true = .ok payload ∧
      parseBackendHandshake payload = .ok ⟨exampleSeed, nativePasswordPlugin⟩) ∧
    backendHandshakeResponse hexLower exampleSha1 exampleSha256 exampleBackend exampleRoute
      exampleSeed exampleVerifier none = .ok examplePayload ∧
    (∃ token, deriveNativeBackendToken hexLower exampleSha1 exampleRoute.authResponse exampleSeed
        exampleBackend.authSeed exampleVerifier = .ok token ∧
      parseClientHandshakeResponse examplePayload =
        .ok ⟨exampleRoute.username, exampleRoute.database, token, 45⟩) ∧
    parseClientHandshakeResponse [] ≠ .error .outOfRange ∧
      parseBackendHandshake [] ≠ .error .outOfRange := by
  obtain ⟨hgreeting, hresponse, hrange⟩ := handshakes_agree hexLower exampleSha1 exampleSha256
  have hpayload : backendHandshakeResponse hexLower exampleSha1 exampleSha256 exampleBackend
      exampleRoute exampleSeed exampleVerifier none = .ok examplePayload := by decide +kernel
  exact ⟨hgreeting exampleSeed .mariadb true (by decide) (by decide), hpayload,
    hresponse _ _ _ _ _ _ (by decide) (by decide) (by decide) rfl hpayload (by decide +kernel),
    hrange []⟩

end DatabasesEverywhere.MysqlHandshake
