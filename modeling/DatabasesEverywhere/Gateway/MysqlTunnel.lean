import DatabasesEverywhere.Gateway.Tunnel
import DatabasesEverywhere.Sql.MysqlPolicy

/-!
# Gateway/MysqlTunnel — a MySQL session keeps its identity and its storage

    packet = length(3) sequence(1) payload
    command packet: sequence 0, the command in the first byte of the payload

A command of more than `0xffffff - 1` bytes goes on in packets with other sequence ids.  The commands
of a shared tenant that carry SQL are read whole, validated and only then sent; everything else is
streamed.  Three layers: the code (`uploadMysql`), what passes on a packet (`Packet.Passes`), and
the commands of a list of packets (`commands`), which look ahead for the packet that completes them.
-/

open Foundations

namespace DatabasesEverywhere.Gateway

open Tunnel

def mysqlComQuery : UInt8 := 0x03
def mysqlComCreateDb : UInt8 := 0x05
def mysqlComDropDb : UInt8 := 0x06
def mysqlComChangeUser : UInt8 := 0x11
def mysqlComStmtPrepare : UInt8 := 0x16
def mysqlComStmtExecute : UInt8 := 0x17
def mysqlMaxSinglePacketPayload : ℕ := 0xffffff
def sqlPrefixBytes : ℕ := 512

/-- The length of a payload, from the header. -/
def mysqlPayloadLen (header : Bytes) : ℕ :=
  (header.getD 0 0).toNat ||| (header.getD 1 0).toNat <<< 8 ||| (header.getD 2 0).toNat <<< 16

def isSqlCommand (command : UInt8) : Bool :=
  command = mysqlComQuery || command = mysqlComStmtPrepare

def isStorageCommand (command : UInt8) : Bool :=
  command = mysqlComCreateDb || command = mysqlComDropDb

/-! ## The upload -/

section Upload

variable (shared : Bool) (protocol : Protocol)

/-- A shared tenant's SQL is read whole and validated before a byte of it is sent. -/
def forwardSharedSql (header first : Bytes)
    (payloadLen : ℕ) : Upload Unit := do
  let body ← Tunnel.readExact (payloadLen - 1)
  match Sql.validateSharedMysqlCommand body protocol with
  | .error error => do
    Tunnel.rejectKind (classifySql body)
    .fail (.sharedStorageCommandRejected error.message)
  | .ok () => do
    Tunnel.writeAll header
    Tunnel.writeAll (first ++ body)
    Tunnel.accept (classifySql body)

/-- `continued_command.take()` and the count of what it held. -/
def acceptContinued : Option OperationKind → Upload Unit
  | some kind => Tunnel.accept kind
  | none => pure ()

/-- The kind under which a streamed command is counted. -/
def streamedKind (command : UInt8) (front : Bytes) : Option OperationKind :=
  if isSqlCommand command then some (classifySql front)
  else if command = mysqlComStmtExecute then some .other
  else none

/-- A packet that is sent as it comes in; the front of its payload is kept to be classified. -/
def streamPayload (header first : Bytes) (payloadLen : ℕ) : Upload Bytes := do
  Tunnel.writeAll header
  Tunnel.writeAll first
  let remaining := payloadLen - 1
  let front ← Tunnel.readExact (min remaining sqlPrefixBytes)
  Tunnel.writeAll front
  Tunnel.copyExact (remaining - min remaining sqlPrefixBytes)
    "mysql client packet ended before its declared length"
  pure front

variable (continued : Option OperationKind)

/-- A command is counted when its last packet was sent. -/
def countStreamed (command : UInt8) (front : Bytes) (payloadLen : ℕ) (isCommandPacket : Bool) :
    Upload (Option OperationKind) :=
  match if isCommandPacket then streamedKind command front else none with
  | some kind =>
    if payloadLen = mysqlMaxSinglePacketPayload then pure (some kind)
    else do
      Tunnel.accept kind
      pure continued
  | none =>
    if !isCommandPacket && payloadLen < mysqlMaxSinglePacketPayload then do
      acceptContinued continued
      pure none
    else pure continued

/-- A packet with a payload. -/
def forwardPayload (header : Bytes) (payloadLen : ℕ) (isCommandPacket : Bool)
    : Upload (Option OperationKind) := do
  let first ← Tunnel.readExact 1
  let command := first.getD 0 0
  if isCommandPacket && command = mysqlComChangeUser then do
    Tunnel.rejectKind .other
    .fail (.identitySwitchRejected protocol)
  else if shared && isCommandPacket && isStorageCommand command then do
    Tunnel.rejectKind .ddl
    .fail (.sharedStorageCommandRejected
      "raw database create/drop commands are unavailable to shared tenants")
  else if shared && isCommandPacket && isSqlCommand command then
    if payloadLen = mysqlMaxSinglePacketPayload then do
      Tunnel.rejectKind .other
      .fail (.sharedStorageCommandRejected "SQL command exceeds the bounded single-packet policy")
    else do
      -- `buffers.reserve`, which depends on what other sessions hold
      .step (.io (.wouldBlock "shared SQL buffer capacity reached")) id fun _ => id
      (forwardSharedSql protocol header first payloadLen).within
        (.io (.timedOut "shared SQL command transfer timed out"))
      pure continued
  else do
    let front ← streamPayload header first payloadLen
    countStreamed continued command front payloadLen isCommandPacket

/-- One turn of the upload loop; `continued` is the kind of a command that goes on. -/
def forwardPacket : Upload (Option OperationKind ⊕ Unit) := do
  let start ← Tunnel.read
  if start = [] then do
    Tunnel.shutdown
    pure (.inr ())
  else do
    let rest ← Tunnel.readExact 3
    let header := start ++ rest
    let payloadLen := mysqlPayloadLen header
    let isCommandPacket : Bool := header.getD 3 0 = 0
    let continued := if isCommandPacket then none else continued
    if payloadLen = 0 then do
      Tunnel.writeAll header
      acceptContinued continued
      pure (.inl none)
    else do
      let continued ← forwardPayload shared protocol continued header payloadLen isCommandPacket
      pure (.inl continued)

/-- The upload of `proxy_mysql_session`.  Every turn takes a header off the client's bytes, so they
are fuel enough. -/
def uploadMysql : Upload Unit := do
  let tunnel ← .look
  .loop (.io .client) (forwardPacket shared protocol) (tunnel.client.length + 1) none

end Upload

/-! ## Packets and what passes -/

/-- A whole packet. -/
structure Packet where
  header : Bytes
  payload : Bytes
  header_length : header.length = 4
  declared : payload.length = mysqlPayloadLen header

namespace Packet

variable (packet : Packet)

def bytes : Bytes := packet.header ++ packet.payload

def sequence : UInt8 := packet.header.getD 3 0

/-- The command of a command packet. -/
def command : Option UInt8 :=
  if packet.sequence = 0 then packet.payload.head? else none

/-- The packet keeps the session's identity.  For a shared tenant it creates and drops no database,
and the SQL it may carry is in it whole and was validated. -/
def Passes (shared : Bool) (protocol : Protocol) (packet : Packet) : Prop :=
  ∀ command ∈ packet.command, command ≠ mysqlComChangeUser ∧
    (shared = true → isStorageCommand command = false ∧
      (isSqlCommand command = true → packet.payload.length < mysqlMaxSinglePacketPayload ∧
        Sql.validateSharedMysqlCommand packet.payload.tail protocol = .ok ()))

/-- The kind under which the packet's command is counted, if it is a query, prepare or execute. -/
def counted (shared : Bool) (packet : Packet) : Option OperationKind :=
  packet.command.bind fun command =>
    streamedKind command
      (if shared && isSqlCommand command then packet.payload.tail
        else packet.payload.tail.take sqlPrefixBytes)

theorem payload_length_le : packet.payload.length ≤ mysqlMaxSinglePacketPayload := by
  have hshift : ∀ (b : UInt8) (k : ℕ), k ≤ 16 → b.toNat <<< k < 2 ^ 24 := by
    intro b k hk
    have hb := b.toNat_lt
    calc b.toNat <<< k = b.toNat * 2 ^ k := Nat.shiftLeft_eq ..
      _ ≤ b.toNat * 2 ^ 16 := Nat.mul_le_mul_left _ (Nat.pow_le_pow_right (by decide) hk)
      _ < 2 ^ 24 := by omega
  have hlen : mysqlPayloadLen packet.header < 2 ^ 24 :=
    Nat.or_lt_two_pow (Nat.or_lt_two_pow (by simpa using hshift _ 0 (by decide))
      (hshift _ 8 (by decide))) (hshift _ 16 (by decide))
  rw [packet.declared]
  exact Nat.le_of_lt_succ hlen

end Packet

def mysqlWire (packets : List Packet) : Bytes := packets.flatMap Packet.bytes

/-! ## The commands of a list of packets -/

/-- The packets go on with a command up to its last packet. -/
def completed : List Packet → Bool
  | [] => false
  | packet :: packets =>
    packet.sequence ≠ 0 &&
      (packet.payload.length < mysqlMaxSinglePacketPayload || completed packets)

/-- **The commands that are counted**: each query, prepare and execute once, if its continuation
packets are there. -/
def commands (shared : Bool) : List Packet → List OperationKind
  | [] => []
  | packet :: packets =>
    (if packet.payload.length < mysqlMaxSinglePacketPayload || completed packets then
      (packet.counted shared).toList else []) ++ commands shared packets

/-- What the loop does with one packet: the kinds counted so far, and the one that goes on. -/
def track (shared : Bool) (state : List OperationKind × Option OperationKind) (packet : Packet) :
    List OperationKind × Option OperationKind :=
  if packet.sequence = 0 then
    if packet.payload.length = mysqlMaxSinglePacketPayload then (state.1, packet.counted shared)
    else (state.1 ++ (packet.counted shared).toList, none)
  else if packet.payload.length < mysqlMaxSinglePacketPayload then
    (state.1 ++ state.2.toList, none)
  else state

section Track

variable {shared : Bool} {state : List OperationKind × Option OperationKind} {packet : Packet}

theorem track_command (hsequence : packet.sequence = 0)
    (hmax : packet.payload.length ≠ mysqlMaxSinglePacketPayload) :
    track shared state packet = (state.1 ++ (packet.counted shared).toList, none) := by
  rw [track, if_pos hsequence, if_neg hmax]

theorem track_longCommand (hsequence : packet.sequence = 0)
    (hmax : packet.payload.length = mysqlMaxSinglePacketPayload) :
    track shared state packet = (state.1, packet.counted shared) := by
  rw [track, if_pos hsequence, if_pos hmax]

variable (hsequence : packet.sequence ≠ 0)
include hsequence

theorem track_last (hshort : packet.payload.length < mysqlMaxSinglePacketPayload) :
    track shared state packet = (state.1 ++ state.2.toList, none) := by
  rw [track, if_neg hsequence, if_pos hshort]

theorem track_between (hlong : ¬ packet.payload.length < mysqlMaxSinglePacketPayload) :
    track shared state packet = state := by
  rw [track, if_neg hsequence, if_neg hlong]

end Track

/-- **Looking back with a pending kind counts what looking ahead counts.** -/
theorem foldl_track (shared : Bool) (packets : List Packet)
    (state : List OperationKind × Option OperationKind) :
    (packets.foldl (track shared) state).1 =
      state.1 ++ (if completed packets then state.2.toList else []) ++ commands shared packets := by
  induction packets generalizing state with
  | nil => simp [completed, commands]
  | cons packet packets ih =>
    have hle := packet.payload_length_le
    rw [List.foldl_cons, ih, track, completed, commands]
    by_cases hcommand : packet.sequence = 0
    · by_cases hmax : packet.payload.length = mysqlMaxSinglePacketPayload
      · simp [hcommand, hmax]
      · have hlt : packet.payload.length < mysqlMaxSinglePacketPayload := by omega
        simp [hcommand, hmax, hlt]
    · have hnone : packet.counted shared = none := by
        rw [Packet.counted, Packet.command, if_neg hcommand, Option.bind_none]
      by_cases hlt : packet.payload.length < mysqlMaxSinglePacketPayload
      · simp [hcommand, hnone, hlt]
      · simp [hcommand, hnone, hlt]

/-! ## What the backend was sent -/

/-- The command at the front of a byte string that starts with a packet. -/
def commandAt (rest : Bytes) : Option UInt8 :=
  if rest.getD 3 0 = 0 ∧ mysqlPayloadLen rest ≠ 0 then rest[4]? else none

/-- The packet under way, of which a front was sent.  It keeps the identity and the storage; it is cut
by the backend alone if it carries a shared tenant's SQL, and is then whole in what the client sent. -/
structure Begun (shared : Bool) (protocol : Protocol) (atFault : Bool) (rest part : Bytes) : Prop where
  front : part <+: rest
  inside : part.length ≤ 4 + mysqlPayloadLen rest
  short : atFault = false → part.length < 4 + mysqlPayloadLen rest
  identity : commandAt rest ≠ some mysqlComChangeUser
  storage : shared = true → ∀ command ∈ commandAt rest, isStorageCommand command = false
  sql : shared = true → ∀ command ∈ commandAt rest, isSqlCommand command = true →
    atFault = true ∧ ∃ packet : Packet, packet.bytes <+: rest ∧ packet.Passes shared protocol

def acceptedKinds (activity : List ActivityEvent) : List OperationKind :=
  activity.filterMap fun
    | .accepted kind => some kind
    | .rejected _ => none

/-- What the backend was sent: whole packets that pass, and perhaps a front of the next one.  The
commands completed by the whole packets are those that were counted.  A packet has been forwarded
when the copy of its payload returns; if the backend then fails to flush, all of its bytes are the
front. -/
def MysqlSent (shared : Bool) (protocol : Protocol) (client : Bytes) (atFault : Bool) (sent : Bytes)
    (activity : List ActivityEvent) : Prop :=
  ∃ packets part rest, client = mysqlWire packets ++ rest ∧ sent = mysqlWire packets ++ part ∧
    part <+: rest ∧ (∀ packet ∈ packets, packet.Passes shared protocol) ∧
    acceptedKinds activity = commands shared packets ∧
    (part ≠ [] → Begun shared protocol atFault rest part)

/-- Between two turns of the loop the backend was sent whole packets. -/
structure MysqlAligned (shared : Bool) (protocol : Protocol) (client : Bytes) (packets : List Packet)
    (continued : Option OperationKind) (tunnel : Tunnel) : Prop where
  received : client = mysqlWire packets ++ tunnel.client
  sent : tunnel.backend = mysqlWire packets
  passes : ∀ packet ∈ packets, packet.Passes shared protocol
  tracked : (acceptedKinds tunnel.activity, continued) = packets.foldl (track shared) ([], none)

namespace MysqlAligned

variable {shared : Bool} {protocol : Protocol} {client : Bytes} {packets : List Packet}
  {continued : Option OperationKind} {tunnel : Tunnel}
  (h : MysqlAligned shared protocol client packets continued tunnel)

include h

theorem counted : acceptedKinds tunnel.activity = commands shared packets := by
  have hfold := foldl_track shared packets ([], none)
  rw [← h.tracked] at hfold
  simpa using hfold

variable {activity : List ActivityEvent}

/-- A front of the packet under way has been sent; only operations that were refused have been
reported since. -/
theorem mysqlSent {atFault : Bool} {part : Bytes}
    (hactivity : acceptedKinds activity = acceptedKinds tunnel.activity)
    (hpart : part ≠ [] → Begun shared protocol atFault tunnel.client part) :
    MysqlSent shared protocol client atFault (tunnel.backend ++ part) activity := by
  refine ⟨packets, part, tunnel.client, h.received, by rw [h.sent], ?_, h.passes,
    hactivity.trans h.counted, hpart⟩
  rcases eq_or_ne part [] with rfl | hsome
  · exact List.nil_prefix
  · exact (hpart hsome).front

theorem unsent (atFault : Bool)
    (hactivity : acceptedKinds activity = acceptedKinds tunnel.activity) :
    MysqlSent shared protocol client atFault tunnel.backend activity := by
  have hsent : MysqlSent shared protocol client atFault (tunnel.backend ++ []) activity :=
    h.mysqlSent hactivity (by simp)
  rwa [List.append_nil] at hsent

/-- The packet under way has been sent. -/
theorem next {packet : Packet} {after : Bytes} {continued' : Option OperationKind}
    (hclient : tunnel.client = packet.bytes ++ after) (hpasses : packet.Passes shared protocol)
    (htrack : (acceptedKinds activity, continued') =
      track shared (acceptedKinds tunnel.activity, continued) packet) :
    MysqlAligned shared protocol client (packets ++ [packet]) continued'
      ⟨after, tunnel.backend ++ packet.bytes, activity⟩ := by
  refine ⟨?_, ?_, ?_, ?_⟩
  · rw [h.received, hclient]
    simp [mysqlWire]
  · simp [mysqlWire, h.sent]
  · intro other hother
    rcases List.mem_append.mp hother with hold | hnew
    · exact h.passes other hold
    · exact List.mem_singleton.mp hnew ▸ hpasses
  · rw [List.foldl_append, ← h.tracked]
    exact htrack

end MysqlAligned

/-! ## One turn of the loop -/

variable {header : Bytes}

theorem mysqlPayloadLen_append (hheader : header.length = 4) (behind : Bytes) :
    mysqlPayloadLen (header ++ behind) = mysqlPayloadLen header := by
  simp only [mysqlPayloadLen]
  rw [List.getD_append _ _ _ _ (by omega), List.getD_append _ _ _ _ (by omega),
    List.getD_append _ _ _ _ (by omega)]

theorem commandAt_append (hheader : header.length = 4) (hlen : mysqlPayloadLen header ≠ 0)
    (command : UInt8) (behind : Bytes) :
    commandAt (header ++ command :: behind) =
      if header.getD 3 0 = 0 then some command else none := by
  have hfirst : (header ++ command :: behind)[4]? = some command := by
    rw [List.getElem?_append_right (by omega), hheader]
    rfl
  rw [commandAt, mysqlPayloadLen_append hheader, List.getD_append _ _ _ _ (by omega), hfirst]
  simp [hlen]

@[simp] theorem acceptedKinds_append (a b : List ActivityEvent) :
    acceptedKinds (a ++ b) = acceptedKinds a ++ acceptedKinds b :=
  List.filterMap_append ..

variable (kind : OperationKind)

@[simp] theorem acceptedKinds_accepted : acceptedKinds [.accepted kind] = [kind] := rfl

@[simp] theorem acceptedKinds_rejected : acceptedKinds [.rejected kind] = [] := rfl

section Turn

variable {shared : Bool} {protocol : Protocol} {client : Bytes} {packets : List Packet}
  {continued : Option OperationKind} {tunnel : Tunnel}

/-- What a turn has reached: one more packet was sent, and bytes of the client were used up. -/
def Forwarded (shared : Bool) (protocol : Protocol) (client : Bytes) (tunnel : Tunnel)
    (continued : Option OperationKind) (after : Tunnel) : Prop :=
  (∃ packets, MysqlAligned shared protocol client packets continued after) ∧
    after.client.length < tunnel.client.length

variable {command : UInt8}

/-- The commands of SQL change no identity and create no database. -/
theorem isSqlCommand_only (h : isSqlCommand command = true) :
    command ≠ mysqlComChangeUser ∧ isStorageCommand command = false := by
  simp only [isSqlCommand, Bool.or_eq_true, decide_eq_true_eq] at h
  rcases h with rfl | rfl
  · decide
  · decide

/-- A packet that carries no shared tenant's SQL, and that keeps the identity and the storage. -/
structure Streamed (shared : Bool) (header : Bytes) (command : UInt8) : Prop where
  header_length : header.length = 4
  payload : mysqlPayloadLen header ≠ 0
  identity : header.getD 3 0 = 0 → command ≠ mysqlComChangeUser
  storage : shared = true → header.getD 3 0 = 0 → isStorageCommand command = false
  sql : shared = true → header.getD 3 0 = 0 → isSqlCommand command = false

variable {rest : Bytes}

theorem Streamed.begun (h : Streamed shared header command) {part : Bytes} {atFault : Bool}
    (hpart : part <+: header ++ command :: rest)
    (hinside : part.length ≤ 4 + mysqlPayloadLen header)
    (hshort : atFault = false → part.length < 4 + mysqlPayloadLen header) :
    Begun shared protocol atFault (header ++ command :: rest) part := by
  have hcommandAt : ∀ other, commandAt (header ++ command :: rest) = some other →
      header.getD 3 0 = 0 ∧ other = command := by
    intro other hother
    rw [commandAt_append h.header_length h.payload] at hother
    split at hother
    · next hsequence => exact ⟨hsequence, (Option.some.inj hother).symm⟩
    · cases hother
  rw [← mysqlPayloadLen_append h.header_length (command :: rest)] at hinside hshort
  refine ⟨hpart, hinside, hshort, fun hother => ?_, fun hshared other hother => ?_,
    fun hshared other hother hsql => ?_⟩
  · obtain ⟨hsequence, heq⟩ := hcommandAt _ hother
    exact h.identity hsequence heq.symm
  · obtain ⟨hsequence, rfl⟩ := hcommandAt _ hother
    exact h.storage hshared hsequence
  · obtain ⟨hsequence, rfl⟩ := hcommandAt _ hother
    rw [h.sql hshared hsequence] at hsql
    cases hsql

variable {body : Bytes}

theorem Streamed.passes (h : Streamed shared header command)
    (hpayload : (command :: body).length = mysqlPayloadLen header) :
    Packet.Passes shared protocol ⟨header, command :: body, h.header_length, hpayload⟩ := by
  intro other hother
  obtain ⟨hsequence, rfl⟩ : header.getD 3 0 = 0 ∧ other = command := by
    rw [Option.mem_def, Packet.command, Packet.sequence] at hother
    split at hother
    · next hsequence => exact ⟨hsequence, (Option.some.inj hother).symm⟩
    · cases hother
  refine ⟨h.identity hsequence, fun hshared => ⟨h.storage hshared hsequence, fun hsql => ?_⟩⟩
  rw [h.sql hshared hsequence] at hsql
  cases hsql

theorem ensures_acceptContinued {returned : Unit → Tunnel → Prop} {kind : Option OperationKind}
    {cut : Bool → Bytes → List ActivityEvent → Prop}
    (h : ∀ activity, acceptedKinds activity = acceptedKinds tunnel.activity ++ kind.toList →
      returned () { tunnel with activity }) :
    Ensures (acceptContinued kind) (Tunnel.orCut returned cut) tunnel := by
  cases kind with
  | none => exact ensures_pure (h tunnel.activity (by simp))
  | some kind => exact ensures_accept (h _ (by simp))

theorem Streamed.counted (h : Streamed shared header command)
    (hpayload : (command :: body).length = mysqlPayloadLen header) :
    Packet.counted shared ⟨header, command :: body, h.header_length, hpayload⟩ =
      if header.getD 3 0 = 0 then streamedKind command (body.take sqlPrefixBytes) else none := by
  rw [Packet.counted, Packet.command, Packet.sequence]
  split
  · next hsequence =>
    have hunshared : (shared && isSqlCommand command) = false := by
      cases hshared : shared with
      | false => rfl
      | true => exact h.sql hshared hsequence
    simp only [List.head?_cons, Option.bind_some, hunshared, Bool.false_eq_true, if_false,
      List.tail_cons]
  · rfl

variable (h : MysqlAligned shared protocol client packets continued tunnel)

include h

variable {activity : List ActivityEvent}

theorem MysqlAligned.forwarded {payload after : Bytes} {continued' : Option OperationKind}
    (hheader : header.length = 4) (hpayload : payload.length = mysqlPayloadLen header)
    (hclient : tunnel.client = header ++ (payload ++ after))
    (hpasses : Packet.Passes shared protocol ⟨header, payload, hheader, hpayload⟩)
    (htrack : (acceptedKinds activity, continued') =
      track shared (acceptedKinds tunnel.activity, continued) ⟨header, payload, hheader, hpayload⟩) :
    Forwarded shared protocol client tunnel continued'
      ⟨after, tunnel.backend ++ (header ++ payload), activity⟩ := by
  refine ⟨⟨_, h.next (by rw [hclient, Packet.bytes, List.append_assoc]) hpasses htrack⟩, ?_⟩
  simp only [hclient, List.length_append]
  omega

omit h in
theorem ensures_forwardSharedSql (h : MysqlAligned true protocol client packets continued tunnel)
    (hheader : header.length = 4) (hlen : mysqlPayloadLen header ≠ 0)
    (hmax : mysqlPayloadLen header ≠ mysqlMaxSinglePacketPayload) (hsequence : header.getD 3 0 = 0)
    (hsql : isSqlCommand command = true) (hclient : tunnel.client = header ++ command :: rest) :
    Ensures (forwardSharedSql protocol header [command] (mysqlPayloadLen header))
      (Tunnel.orCut (fun _ => Forwarded true protocol client tunnel none)
        (MysqlSent true protocol client)) { tunnel with client := rest } := by
  obtain ⟨hidentity, hstorage⟩ := isSqlCommand_only hsql
  refine ensures_seq (ensures_readExact (fun _ atFault => h.unsent atFault rfl) ?_)
  intro body after hbody hbodyLen
  have hbody : rest = body ++ after := hbody
  subst hbody
  have hpayload : (command :: body).length = mysqlPayloadLen header := by
    rw [List.length_cons, hbodyLen]
    omega
  have hsplit : tunnel.client = header ++ (command :: body ++ after) := by rw [hclient]; rfl
  split
  · exact ensures_reject (h.unsent _ (by simp))
  next hvalid =>
  have hcommand : Packet.command ⟨header, command :: body, hheader, hpayload⟩ = some command :=
    if_pos hsequence
  have hpasses : Packet.Passes true protocol ⟨header, command :: body, hheader, hpayload⟩ := by
    intro other hother
    obtain rfl := Option.some.inj (hcommand.symm.trans hother)
    refine ⟨hidentity, fun _ => ⟨hstorage, fun _ => ⟨?_, hvalid⟩⟩⟩
    exact lt_of_le_of_ne (Packet.payload_length_le ⟨header, command :: body, hheader, hpayload⟩)
      (by rwa [hpayload])
  have hbegun : ∀ part, part <+: header ++ (command :: body) →
      Begun true protocol true tunnel.client part := by
    intro part hpart
    have hinside := hpart.length_le
    rw [List.length_append, hheader, hpayload] at hinside
    have hcommandAt : commandAt tunnel.client = some command := by
      rw [hclient, commandAt_append hheader hlen, if_pos hsequence]
    refine ⟨?_, ?_, by simp, ?_, ?_, ?_⟩
    · rw [hsplit, ← List.append_assoc]
      exact hpart.trans (List.prefix_append _ _)
    · rwa [hsplit, mysqlPayloadLen_append hheader]
    · rw [hcommandAt]
      exact fun heq => hidentity (Option.some.inj heq)
    · intro _ other hother
      rw [hcommandAt] at hother
      exact Option.some.inj hother ▸ hstorage
    · intro _ _ _ _
      refine ⟨rfl, ⟨header, command :: body, hheader, hpayload⟩, ?_, hpasses⟩
      rw [hsplit, ← List.append_assoc]
      exact List.prefix_append _ _
  refine ensures_seq (ensures_writeAll (fun k _ => ?_) ?_)
  · exact h.mysqlSent rfl fun _ =>
      hbegun _ ((List.take_prefix _ _).trans (List.prefix_append _ _))
  refine ensures_seq (ensures_writeAll (fun k _ => ?_) ?_)
  · rw [List.append_assoc]
    refine h.mysqlSent rfl fun _ => hbegun _ ?_
    rw [List.prefix_append_right_inj]
    exact List.take_prefix _ _
  refine ensures_accept ?_
  dsimp only
  rw [List.append_assoc]
  refine h.forwarded hheader hpayload hsplit hpasses ?_
  have hcounted : Packet.counted true ⟨header, command :: body, hheader, hpayload⟩ =
      some (classifySql body) := by
    rw [Packet.counted, hcommand]
    simp [streamedKind, hsql]
  have htrack := @track_command true (acceptedKinds tunnel.activity, continued)
    ⟨header, command :: body, hheader, hpayload⟩ hsequence (by rwa [hpayload])
  rw [hcounted] at htrack
  refine Eq.trans ?_ htrack.symm
  simp

/-- The packet was sent, and `front` is what its command is classified by. -/
theorem ensures_streamPayload (hstreamed : Streamed shared header command)
    (hclient : tunnel.client = header ++ command :: rest) {returned : Bytes → Tunnel → Prop}
    (hsent : ∀ body after, rest = body ++ after →
      (command :: body).length = mysqlPayloadLen header →
      returned (body.take sqlPrefixBytes)
        ⟨after, tunnel.backend ++ (header ++ command :: body), tunnel.activity⟩) :
    Ensures (streamPayload header [command] (mysqlPayloadLen header))
      (Tunnel.orCut returned (MysqlSent shared protocol client)) { tunnel with client := rest } := by
  have hheader := hstreamed.header_length
  have hpayloadLen := hstreamed.payload
  have hcut : ∀ atFault front behind, rest = front ++ behind →
      front.length + 1 ≤ mysqlPayloadLen header →
      (atFault = false → front.length + 1 < mysqlPayloadLen header) →
      MysqlSent shared protocol client atFault
        (tunnel.backend ++ header ++ [command] ++ front) tunnel.activity := by
    rintro atFault front behind rfl hinside hshort
    rw [List.append_assoc, List.append_assoc]
    refine h.mysqlSent rfl fun _ => ?_
    rw [hclient]
    refine hstreamed.begun ?_ (by simp [hheader]; omega) fun hfault => ?_
    · rw [List.prefix_append_right_inj]
      exact ⟨behind, by simp⟩
    · have := hshort hfault
      simp only [List.length_append, List.length_singleton, hheader]
      omega
  refine ensures_seq (ensures_writeAll (fun k hk => ?_) ?_)
  · refine h.mysqlSent rfl fun _ => ?_
    rw [hclient]
    exact hstreamed.begun ((List.take_prefix _ _).trans (List.prefix_append _ _))
      (by rw [List.length_take]; omega) (by simp)
  refine ensures_seq (ensures_writeAll (fun k hk => ?_) ?_)
  · obtain rfl : k = 0 := by simpa using hk
    rw [List.append_assoc]
    refine h.mysqlSent rfl fun _ => ?_
    rw [hclient]
    exact hstreamed.begun (by simp) (by simp [hheader]) (by simp)
  refine ensures_seq (ensures_readExact (fun hpos atFault => ?_) ?_)
  · simpa using hcut atFault [] rest rfl (by simp; omega) fun _ => by simp; omega
  intro front rest' hrest hfront
  have hrest : rest = front ++ rest' := hrest
  refine ensures_seq (ensures_writeAll (fun k hk => ?_) ?_)
  · exact hcut true (front.take k) (front.drop k ++ rest')
      (by rw [← List.append_assoc, List.take_append_drop, hrest])
      (by rw [List.length_take]; omega) (by simp)
  have hcopy : ∀ body after, rest' = body ++ after → ∀ atFault,
      (front ++ body).length + 1 ≤ mysqlPayloadLen header →
      (atFault = false → (front ++ body).length + 1 < mysqlPayloadLen header) →
      MysqlSent shared protocol client atFault
        (tunnel.backend ++ header ++ [command] ++ front ++ body) tunnel.activity := by
    rintro body after rfl atFault hinside hshort
    rw [List.append_assoc _ front body]
    exact hcut atFault (front ++ body) after (by rw [hrest, List.append_assoc]) hinside hshort
  refine ensures_seq (ensures_copyExact ?_ ?_ ?_)
  · intro body after hafter hlen atFault _
    exact hcopy body after hafter atFault (by rw [List.length_append]; omega)
      fun _ => by rw [List.length_append]; omega
  · intro body after hafter hlen
    exact hcopy body after hafter true (by rw [List.length_append]; omega) (by simp)
  intro body after hafter hlen
  have hafter : rest' = body ++ after := hafter
  have hfirst : (front ++ body).take sqlPrefixBytes = front := by
    rcases Nat.le_total (mysqlPayloadLen header - 1) sqlPrefixBytes with hle | hge
    · obtain rfl : body = [] := List.eq_nil_of_length_eq_zero (by omega)
      rw [List.append_nil, List.take_of_length_le (by omega)]
    · exact List.take_left' (by omega)
  have hdone := hsent (front ++ body) after (by rw [hrest, hafter, List.append_assoc])
    (by simp only [List.length_cons, List.length_append]; omega)
  rw [hfirst] at hdone
  exact ensures_pure (by simpa [Tunnel.orCut] using hdone)

theorem ensures_countStreamed {after : Bytes} (hstreamed : Streamed shared header command)
    (hclient : tunnel.client = header ++ command :: (body ++ after))
    (hpayload : (command :: body).length = mysqlPayloadLen header) :
    Ensures (countStreamed (if header.getD 3 0 = 0 then none else continued) command
        (body.take sqlPrefixBytes) (mysqlPayloadLen header) (header.getD 3 0 = 0))
      (Tunnel.orCut (Forwarded shared protocol client tunnel) (MysqlSent shared protocol client))
      ⟨after, tunnel.backend ++ (header ++ command :: body), tunnel.activity⟩ := by
  have hforwarded : ∀ activity continued', (acceptedKinds activity, continued') =
      track shared (acceptedKinds tunnel.activity, continued)
        ⟨header, command :: body, hstreamed.header_length, hpayload⟩ →
      Forwarded shared protocol client tunnel continued'
        ⟨after, tunnel.backend ++ (header ++ command :: body), activity⟩ :=
    fun _ _ => h.forwarded hstreamed.header_length hpayload hclient (hstreamed.passes hpayload)
  have hcounted := hstreamed.counted hpayload
  have hpacket : ∃ packet : Packet, packet =
    ⟨header, command :: body, hstreamed.header_length, hpayload⟩ := ⟨_, rfl⟩
  obtain ⟨packet, hpacket⟩ := hpacket
  rw [← hpacket] at hforwarded hcounted
  have hlen : packet.payload.length = mysqlPayloadLen header := hpacket ▸ hpayload
  have hpacketSequence : packet.sequence = header.getD 3 0 := hpacket ▸ rfl
  rw [countStreamed, ← hlen, ← hpacketSequence]
  by_cases hsequence : packet.sequence = 0
  · rw [← hpacketSequence, if_pos hsequence] at hcounted
    rw [if_pos hsequence, decide_eq_true hsequence, if_pos rfl, ← hcounted]
    by_cases hmax : packet.payload.length = mysqlMaxSinglePacketPayload
    · have hkept : Forwarded shared protocol client tunnel (packet.counted shared)
          ⟨after, tunnel.backend ++ (header ++ command :: body), tunnel.activity⟩ :=
        hforwarded _ _ (by rw [track_longCommand hsequence hmax])
      split
      · next kind hkind =>
        rw [if_pos hmax]
        exact ensures_pure (hkind ▸ hkept)
      · next hkind =>
        exact ensures_pure (hkind ▸ hkept)
    · have hshort := @track_command shared (acceptedKinds tunnel.activity, continued) packet
        hsequence hmax
      split
      · next kind hkind =>
        rw [if_neg hmax]
        refine ensures_seq (ensures_accept (ensures_pure ?_))
        refine hforwarded _ _ (Eq.trans ?_ hshort.symm)
        simp [hkind]
      · next hkind =>
        refine ensures_pure (hforwarded _ _ (Eq.trans ?_ hshort.symm))
        simp [hkind]
  · rw [if_neg hsequence, decide_eq_false hsequence, if_neg (by simp)]
    by_cases hshort : packet.payload.length < mysqlMaxSinglePacketPayload
    · rw [if_pos (by simpa using hshort)]
      refine ensures_seq (ensures_acceptContinued fun activity hactivity => ensures_pure ?_)
      refine hforwarded _ _ (Eq.trans ?_ (track_last hsequence hshort).symm)
      rw [hactivity]
    · rw [if_neg (by simpa using hshort)]
      exact ensures_pure (hforwarded _ _ (track_between hsequence hshort).symm)

theorem ensures_forwardPayload (hheader : header.length = 4) (hlen : mysqlPayloadLen header ≠ 0)
    (hclient : tunnel.client = header ++ rest) :
    Ensures (forwardPayload shared protocol (if header.getD 3 0 = 0 then none else continued) header
        (mysqlPayloadLen header) (header.getD 3 0 = 0))
      (Tunnel.orCut (Forwarded shared protocol client tunnel) (MysqlSent shared protocol client))
      { tunnel with client := rest } := by
  refine ensures_seq (ensures_readExact (fun _ atFault => h.unsent atFault rfl) ?_)
  intro first rest' hfirst hone
  have hfirst : rest = first ++ rest' := hfirst
  obtain ⟨command, rfl⟩ := List.length_eq_one_iff.mp hone
  have hclient : tunnel.client = header ++ command :: rest' := by rw [hclient, hfirst]; rfl
  have hreject : ∀ (kind : OperationKind) atFault, MysqlSent shared protocol client atFault
      tunnel.backend (tunnel.activity ++ [.rejected kind]) :=
    fun _ atFault => h.unsent atFault (by simp)
  dsimp only [List.getD_cons_zero]
  split
  · exact ensures_reject (hreject _ _)
  next hidentity =>
  split
  · exact ensures_reject (hreject _ _)
  next hstorage =>
  split
  · next hsql =>
    simp only [Bool.and_eq_true, decide_eq_true_eq] at hsql
    obtain ⟨⟨rfl, hsequence⟩, hcommand⟩ := hsql
    split
    · exact ensures_reject (hreject _ _)
    next hmax =>
    refine ensures_seq (ensures_step ?_ (fun _ => h.unsent _ rfl)
      fun _ => h.unsent _ rfl)
    refine ensures_seq (ensures_within rfl
      ((ensures_forwardSharedSql h hheader hlen hmax hsequence hcommand hclient).mono ?_
        (fun _ _ => id) fun _ => id))
    exact fun _ _ hdone => ensures_pure hdone
  · next hsql =>
    simp only [Bool.and_eq_true, decide_eq_true_eq, not_and, Bool.not_eq_true] at hidentity hstorage hsql
    have hstreamed : Streamed shared header command :=
      ⟨hheader, hlen, hidentity, fun hshared hsequence => hstorage ⟨hshared, hsequence⟩,
        fun hshared hsequence => hsql ⟨hshared, hsequence⟩⟩
    refine ensures_seq (ensures_streamPayload h hstreamed hclient ?_)
    rintro body after rfl hpayload
    exact ensures_countStreamed h hstreamed hclient hpayload

/-- A packet without a payload. -/
theorem forwarded_empty (hheader : header.length = 4) (hempty : mysqlPayloadLen header = 0)
    (hclient : tunnel.client = header ++ rest)
    (hactivity : acceptedKinds activity = acceptedKinds tunnel.activity ++
      (if header.getD 3 0 = 0 then none else continued).toList) :
    Forwarded shared protocol client tunnel none ⟨rest, tunnel.backend ++ header, activity⟩ := by
  have hpayload : ([] : Bytes).length = mysqlPayloadLen header := hempty.symm
  have hcommand : Packet.command ⟨header, [], hheader, hpayload⟩ = none := by
    simp [Packet.command]
  have hforwarded := @MysqlAligned.forwarded header shared protocol client packets continued tunnel h
    activity [] rest none hheader hpayload hclient (by simp [Packet.Passes, hcommand])
  rw [List.append_nil] at hforwarded
  refine hforwarded ?_
  rw [hactivity]
  by_cases hsequence : header.getD 3 0 = 0
  · have htrack := @track_command shared (acceptedKinds tunnel.activity, continued)
      ⟨header, [], hheader, hpayload⟩ hsequence (by simp [mysqlMaxSinglePacketPayload])
    rw [htrack, Packet.counted, hcommand, if_pos hsequence]
    rfl
  · have htrack := @track_last shared (acceptedKinds tunnel.activity, continued)
      ⟨header, [], hheader, hpayload⟩ hsequence (by simp [mysqlMaxSinglePacketPayload])
    rw [htrack, if_neg hsequence]

/-- **One turn of the loop** sends one more packet that passes, or ends the session. -/
theorem ensures_forwardPacket :
    Ensures (forwardPacket shared protocol continued)
      (Tunnel.orCut
        (fun next after => next.elim (fun continued => Forwarded shared protocol client tunnel continued
          after) fun _ => after = tunnel ∧ tunnel.client = [])
        (MysqlSent shared protocol client)) tunnel := by
  refine ensures_seq (ensures_read (fun atFault => h.unsent atFault rfl) ?_ ?_)
  · intro hend
    exact ensures_seq (ensures_shutdown (h.unsent true rfl)
      (ensures_pure (by exact ⟨rfl, hend⟩)))
  intro b rest hb
  refine ensures_seq (ensures_readExact (fun _ atFault => h.unsent atFault rfl) ?_)
  intro more rest' hmore hthree
  have hmore : rest = more ++ rest' := hmore
  have hheader : (b :: more).length = 4 := by simp [hthree]
  have hclient : tunnel.client = (b :: more) ++ rest' := by rw [hb, hmore]; rfl
  rw [List.singleton_append]
  simp only [decide_eq_true_eq]
  split
  swap
  · next hlen =>
    refine ensures_seq ((ensures_forwardPayload h hheader hlen hclient).mono ?_
      (fun _ _ => id) fun _ => id)
    exact fun _ _ hdone => ensures_pure hdone
  next hempty =>
  refine ensures_seq (ensures_writeAll (fun k hk => h.mysqlSent rfl fun _ => ?_) ?_)
  · have hnone : commandAt tunnel.client = none := by
      rw [hclient, commandAt, mysqlPayloadLen_append hheader, hempty]
      simp
    have hlen : ((b :: more).take k).length < 4 := by
      rw [List.length_take]
      omega
    refine ⟨?_, by omega, by simp, by simp [hnone], by simp [hnone], by simp [hnone]⟩
    rw [hclient]
    exact (List.take_prefix _ _).trans (List.prefix_append _ _)
  · refine ensures_seq (ensures_acceptContinued fun activity hactivity => ensures_pure ?_)
    exact forwarded_empty h hheader hempty hclient hactivity

end Turn

/-- **The tunnel forwards a checked stream.**  Whatever the client sends and whatever the peers do, the
backend is sent the client's packets, whole and in order, all of which pass, and a front of the next
packet, which then passes as far as it is known; and the activity counter has accepted each command
that was completed once. -/
theorem mysql_tunnel_checked (shared : Bool) (protocol : Protocol) (client : Bytes) :
    Ensures (uploadMysql shared protocol)
      (Tunnel.orCut
        (fun _ after => MysqlSent shared protocol client false after.backend after.activity ∧
          after.backend = client)
        (MysqlSent shared protocol client)) ⟨client, [], []⟩ := by
  have hstart : MysqlAligned shared protocol client [] none ⟨client, [], []⟩ :=
    ⟨rfl, rfl, by simp, rfl⟩
  refine ensures_bind (ensures_look (ensures_loop
    (fun continued tunnel => ∃ packets, MysqlAligned shared protocol client packets continued tunnel)
    (fun tunnel => tunnel.client.length) ?_ ⟨[], hstart⟩ (Nat.lt_succ_self _)))
  rintro continued tunnel ⟨packets, h⟩
  refine (ensures_forwardPacket h).mono ?_ (fun _ _ => id) fun _ => id
  rintro (_ | _) after hafter
  · exact hafter
  · obtain ⟨rfl, hend⟩ := hafter
    refine ⟨h.unsent false rfl, ?_⟩
    rw [h.sent, h.received, hend, List.append_nil]

end DatabasesEverywhere.Gateway
