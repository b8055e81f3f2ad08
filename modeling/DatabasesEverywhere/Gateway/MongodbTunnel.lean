import DatabasesEverywhere.Gateway.Tunnel

/-!
# Gateway/MongodbTunnel — a MongoDB session keeps its identity

    message = length(4) request(4) response(4) opcode(4) …
    OP_MSG   … flags(4) kind(1) document          document = length(4) type(1) key\0 …
    OP_QUERY … flags(4) collection\0 skip(4) return(4) document

The gateway reads a message only up to the first key of its first document and streams the rest by
the declared length.  What it lets pass is stated on the client's bytes alone (`Passes`); the
theorem is that the backend is sent whole messages that pass, in the client's order, and of the
message under way a front at most.
-/

open Foundations

namespace DatabasesEverywhere.Gateway

open Tunnel

def mongodbOpQuery : ℤ := 2004
def mongodbOpCompressed : ℤ := 2012
def mongodbOpMsg : ℤ := 2013
def mongodbMaxCstringBytes : ℕ := 1024
def maxWireMessageBytes : ℤ := 48000000

/-- `i32::from_le_bytes`. -/
def i32FromLeBytes (bytes : Bytes) : ℤ :=
  let unsigned : ℕ := bytes.foldr (fun b high => b.toNat + 256 * high) 0
  if unsigned < 2 ^ 31 then unsigned else (unsigned : ℤ) - 2 ^ 32

/-! ## Reading the front of a message -/

variable (front : Bytes)

def appendExact (bytes messageLen : ℕ) : Upload Bytes :=
  if front.length + bytes > messageLen then .fail .malformedMongodbMessage
  else do
    let more ← Tunnel.readExact bytes
    pure (front ++ more)

/-- The loop of `append_cstring`, with the bytes that `MONGODB_MAX_CSTRING_BYTES` still allows. -/
def appendCstringLoop (messageLen : ℕ) : ℕ → Bytes → Bytes → Upload (Bytes × Bytes)
  | 0, _, _ => .fail .malformedMongodbMessage
  | allowed + 1, front, value =>
    if front.length ≥ messageLen then .fail .malformedMongodbMessage
    else do
      let byte ← Tunnel.readExact 1
      if byte = [0] then pure (front ++ byte, value)
      else appendCstringLoop messageLen allowed (front ++ byte) (value ++ byte)

def appendCstring (messageLen : ℕ) : Upload (Bytes × Bytes) :=
  appendCstringLoop messageLen mongodbMaxCstringBytes front []

def readMongodbCommandKey (messageLen : ℕ) : Upload (Bytes × Bytes) := do
  let start := front.length
  let front ← appendExact front 5 messageLen
  let documentLen := i32FromLeBytes ((front.drop start).take 4)
  if documentLen < 5 ∨ documentLen > messageLen - start then .fail .malformedMongodbMessage
  else if front.getD (start + 4) 0 = 0 then .fail .malformedMongodbMessage
  else appendCstring front messageLen

def isMongodbIdentityCommand (command : Bytes) : Bool :=
  matchesAnyIgnoreCase command mongodbIdentityCommands

/-- What `read_mongodb_prefix` has found out about a message. -/
structure MongodbPrefix where
  bytes : Bytes
  messageLen : ℕ
  command : Option Bytes

/-- The front of a message up to the key of its command, if its opcode has one. -/
def readMongodbCommand (header : Bytes) (messageLen : ℕ) (opcode : ℤ) :
    Upload (Bytes × Option Bytes) :=
  if opcode = mongodbOpMsg then do
    let front ← appendExact header 5 messageLen
    if front.getD 20 0 ≠ 0 then .fail .malformedMongodbMessage
    else do
      let (front, command) ← readMongodbCommandKey front messageLen
      pure (front, some command)
  else if opcode = mongodbOpQuery then do
    let front ← appendExact header 4 messageLen
    let (front, collection) ← appendCstring front messageLen
    let front ← appendExact front 8 messageLen
    let (front, command) ← readMongodbCommandKey front messageLen
    pure (front, if (ascii ".$cmd").isSuffixOf collection then some command else none)
  else pure (header, none)

def readMongodbPrefix : Upload (Option MongodbPrefix) := do
  let start ← Tunnel.read
  if start = [] then pure none
  else do
    let rest ← Tunnel.readExact 15
    let header := start ++ rest
    let messageLen := i32FromLeBytes (header.take 4)
    if messageLen < 16 ∨ messageLen > maxWireMessageBytes then .fail .malformedMongodbMessage
    else do
      let opcode := i32FromLeBytes (header.drop 12)
      if opcode = mongodbOpCompressed then .fail (.identitySwitchRejected .mongodb)
      else do
        let (front, command) ← readMongodbCommand header messageLen.toNat opcode
        if command.any isMongodbIdentityCommand then .fail (.identitySwitchRejected .mongodb)
        else pure (some { bytes := front, messageLen := messageLen.toNat, command })

/-! ## The upload -/

/-- A refused change of identity is counted. -/
def refuseMongodbMessage {α : Type} : ListenerError → Upload α
  | .identitySwitchRejected protocol => do
    Tunnel.rejectKind .other
    .fail (.identitySwitchRejected protocol)
  | error => .fail error

/-- The message goes to the backend, its front first. -/
def forwardMongodbRest (found : MongodbPrefix) : Upload Unit := do
  Tunnel.writeAll found.bytes
  Tunnel.copyExact (found.messageLen - found.bytes.length)
    "mongodb client message ended before its declared length"
  match found.command with
  | some command => Tunnel.accept (classifyMongodb command)
  | none => pure ()

/-- One turn of the upload loop. -/
def forwardMongodbMessage : Upload (Unit ⊕ Unit) := do
  match ← readMongodbPrefix.attempt with
  | .error error => refuseMongodbMessage error
  | .ok none => do
    Tunnel.shutdown
    pure (.inr ())
  | .ok (some found) => do
    forwardMongodbRest found
    pure (.inl ())

/-- The upload of `proxy_mongodb_session`.  Every turn takes a header off the client's bytes, so they
are fuel enough. -/
def uploadMongodb : Upload Unit := do
  let tunnel ← .look
  .loop .malformedMongodbMessage (fun _ => forwardMongodbMessage) (tunnel.client.length + 1) ()

/-! ## What passes, on the client's bytes -/

/-- The key of a document's first element. -/
def firstKey (document : Bytes) : Bytes := (document.drop 5).takeWhile (· ≠ 0)

variable (message : Bytes)

/-- The message length that a header declares. -/
def declaredLength : ℤ := i32FromLeBytes (message.take 4)

def opcodeOf : ℤ := i32FromLeBytes ((message.drop 12).take 4)

def collectionOf : Bytes := (message.drop 20).takeWhile (· ≠ 0)

/-- The first key of the document that carries the command of a message. -/
def commandKey : Option Bytes :=
  if opcodeOf message = mongodbOpMsg then some (firstKey (message.drop 21))
  else if opcodeOf message = mongodbOpQuery ∧ (ascii ".$cmd").isSuffixOf (collectionOf message) then
    some (firstKey (message.drop (20 + (collectionOf message).length + 1 + 8)))
  else none

/-- The message is not compressed and its command changes no identity. -/
def Passes : Prop :=
  opcodeOf message ≠ mongodbOpCompressed ∧
    ∀ key ∈ commandKey message, isMongodbIdentityCommand key = false

instance : Decidable (Passes message) := inferInstanceAs (Decidable (_ ∧ _))

/-- A whole message. -/
structure MongodbMessage where
  bytes : Bytes
  header : 16 ≤ bytes.length
  declared : declaredLength bytes = bytes.length

/-! ## What the reads ensure

None of them writes, so whatever cuts them leaves the tunnel as it was but for the client's bytes. -/

variable {tunnel : Tunnel} {cut : Bool → Bytes → List ActivityEvent → Prop} {rest : Bytes}

section Reads

variable {front} {messageLen : ℕ}

theorem ensures_appendExact {returned : Bytes → Tunnel → Prop} {n : ℕ}
    (hcut : ∀ atFault, cut atFault tunnel.backend tunnel.activity)
    (hread : ∀ more rest, tunnel.client = more ++ rest → more.length = n →
      front.length + n ≤ messageLen → returned (front ++ more) { tunnel with client := rest }) :
    Ensures (appendExact front n messageLen) (Tunnel.orCut returned cut) tunnel := by
  rw [appendExact]
  split
  · exact ensures_fail (hcut _)
  · next hfits =>
    refine ensures_seq (ensures_readExact (fun _ => hcut) fun more rest hclient hlen => ?_)
    exact ensures_pure (hread more rest hclient hlen (by omega))

variable {returned : Bytes × Bytes → Tunnel → Prop}

section Cut

variable (hcut : ∀ atFault, cut atFault tunnel.backend tunnel.activity)
include hcut

theorem ensures_appendCstringLoop {allowed : ℕ} {value : Bytes}
    (hread : ∀ text rest, tunnel.client = text ++ 0 :: rest → 0 ∉ text →
      front.length + text.length + 1 ≤ messageLen →
      returned (front ++ (text ++ [0]), value ++ text) { tunnel with client := rest }) :
    Ensures (appendCstringLoop messageLen allowed front value) (Tunnel.orCut returned cut) tunnel := by
  induction allowed generalizing tunnel front value with
  | zero => exact ensures_fail (hcut _)
  | succ allowed ih =>
    rw [appendCstringLoop]
    split
    · exact ensures_fail (hcut _)
    next hroom =>
    refine ensures_seq (ensures_readExact (fun _ => hcut) fun byte rest hclient hlen => ?_)
    obtain ⟨b, rfl⟩ := List.length_eq_one_iff.mp hlen
    split
    · next hzero =>
      obtain rfl : b = 0 := by simpa using hzero
      have hdone := hread [] rest hclient (by simp) (by simp; omega)
      rw [List.append_nil] at hdone
      exact ensures_pure hdone
    · next hzero =>
      refine ih (by exact hcut) fun text rest' hclient' htext hfits => ?_
      subst hclient'
      have hdone := hread (b :: text) rest' (by rw [hclient]; rfl)
        (by simpa [eq_comm, htext] using hzero) (by simp at hfits ⊢; omega)
      simpa using hdone

theorem ensures_appendCstring
    (hread : ∀ text rest, tunnel.client = text ++ 0 :: rest → 0 ∉ text →
      front.length + text.length + 1 ≤ messageLen →
      returned (front ++ (text ++ [0]), text) { tunnel with client := rest }) :
    Ensures (appendCstring front messageLen) (Tunnel.orCut returned cut) tunnel :=
  ensures_appendCstringLoop hcut hread

theorem ensures_readMongodbCommandKey
    (hread : ∀ size key rest, tunnel.client = size ++ (key ++ 0 :: rest) → size.length = 5 →
      0 ∉ key → front.length + size.length + key.length + 1 ≤ messageLen →
      returned (front ++ (size ++ (key ++ [0])), key) { tunnel with client := rest }) :
    Ensures (readMongodbCommandKey front messageLen) (Tunnel.orCut returned cut) tunnel := by
  refine ensures_seq (ensures_appendExact hcut fun size rest hclient hsize hfits => ?_)
  dsimp only
  split
  · exact ensures_fail (hcut _)
  split
  · exact ensures_fail (hcut _)
  · refine ensures_appendCstring hcut fun key rest' hkey hzero hfits' => ?_
    subst hkey
    have hdone := hread size key rest' hclient hsize hzero (by simpa [Nat.add_assoc] using hfits')
    simpa using hdone

end Cut

/-- The text up to a zero byte. -/
theorem takeWhile_cstring {text : Bytes} (h : 0 ∉ text) :
    (text ++ 0 :: rest).takeWhile (· ≠ 0) = text := by
  have htext : text.takeWhile (· ≠ 0) = text := by
    rw [List.takeWhile_eq_self_iff]
    exact fun b hb => decide_eq_true (fun hzero => h (hzero ▸ hb))
  rw [List.takeWhile_append, htext, if_pos rfl, List.takeWhile_cons_of_neg (by simp),
    List.append_nil]

theorem firstKey_eq {size key : Bytes} (hsize : size.length = 5) (hkey : 0 ∉ key) :
    firstKey (size ++ (key ++ 0 :: rest)) = key := by
  rw [firstKey, List.drop_left' hsize, takeWhile_cstring hkey]

variable {header : Bytes}

theorem opcodeOf_append (hheader : header.length = 16) (behind : Bytes) :
    opcodeOf (header ++ behind) = i32FromLeBytes (header.drop 12) := by
  have hfour : (header.drop 12).length = 4 := by simp [hheader]
  rw [opcodeOf, List.drop_append_of_le_length (by omega), List.take_left' hfour]

theorem declaredLength_append (hfront : 4 ≤ front.length) (behind : Bytes) :
    declaredLength (front ++ behind) = i32FromLeBytes (front.take 4) := by
  rw [declaredLength, List.take_append_of_le_length hfront]

variable {flags : Bytes}

theorem commandKey_opMsg {size key : Bytes} (hheader : header.length = 16)
    (hopcode : i32FromLeBytes (header.drop 12) = mongodbOpMsg) (hflags : flags.length = 5)
    (hsize : size.length = 5) (hkey : 0 ∉ key) (behind : Bytes) :
    commandKey (header ++ (flags ++ (size ++ (key ++ 0 :: behind)))) = some key := by
  have hdocument : (header ++ (flags ++ (size ++ (key ++ 0 :: behind)))).drop 21 =
      size ++ (key ++ 0 :: behind) := by
    rw [← List.append_assoc, List.drop_left' (by simp [hheader, hflags])]
  rw [commandKey, opcodeOf_append hheader, if_pos hopcode, hdocument, firstKey_eq hsize hkey]

theorem commandKey_opQuery {collection counts size key : Bytes}
    (hheader : header.length = 16) (hopcode : i32FromLeBytes (header.drop 12) = mongodbOpQuery)
    (hflags : flags.length = 4) (hcollection : 0 ∉ collection) (hcounts : counts.length = 8)
    (hsize : size.length = 5) (hkey : 0 ∉ key) (behind : Bytes) :
    commandKey (header ++ (flags ++ (collection ++ 0 :: (counts ++ (size ++ (key ++ 0 :: behind)))))) =
      if (ascii ".$cmd").isSuffixOf collection then some key else none := by
  have hname : collectionOf
      (header ++ (flags ++ (collection ++ 0 :: (counts ++ (size ++ (key ++ 0 :: behind)))))) =
      collection := by
    rw [collectionOf, ← List.append_assoc, List.drop_left' (by simp [hheader, hflags]),
      takeWhile_cstring hcollection]
  have hsplit : header ++ (flags ++ (collection ++ 0 :: (counts ++ (size ++ (key ++ 0 :: behind))))) =
      (header ++ flags ++ collection ++ [0] ++ counts) ++ (size ++ (key ++ 0 :: behind)) := by
    simp
  have hdocument : (header ++ (flags ++ (collection ++ 0 :: (counts ++
      (size ++ (key ++ 0 :: behind)))))).drop (20 + collection.length + 1 + 8) =
      size ++ (key ++ 0 :: behind) := by
    rw [hsplit, List.drop_left' (by simp [hheader, hflags, hcounts]; omega)]
  rw [commandKey, hname, hdocument, firstKey_eq hsize hkey, opcodeOf_append hheader, hopcode,
    if_neg (by decide)]
  simp

/-- **The command read is the command of the message**, whatever follows what was read. -/
theorem ensures_readMongodbCommand {returned : Bytes × Option Bytes → Tunnel → Prop}
    (hcut : ∀ atFault, cut atFault tunnel.backend tunnel.activity) (hheader : header.length = 16)
    (hlen : 16 ≤ messageLen) (hread : ∀ more rest command, tunnel.client = more ++ rest →
      (header ++ more).length ≤ messageLen →
      (∀ behind, commandKey (header ++ (more ++ behind)) = command) →
      returned (header ++ more, command) { tunnel with client := rest }) :
    Ensures (readMongodbCommand header messageLen (i32FromLeBytes (header.drop 12)))
      (Tunnel.orCut returned cut) tunnel := by
  rw [readMongodbCommand]
  split
  · next hmsg =>
    refine ensures_seq (ensures_appendExact hcut fun flags rest hclient hflags hfits => ?_)
    split
    · exact ensures_fail (hcut _)
    refine ensures_seq (ensures_readMongodbCommandKey hcut fun size key rest' hkey hsize hzero
      hfits' => ensures_pure ?_)
    subst hkey
    have hdone := hread (flags ++ (size ++ (key ++ [0]))) rest' (some key) (by simp [hclient])
      (by simp at hfits' ⊢; omega)
      fun behind => by simpa using commandKey_opMsg hheader hmsg hflags hsize hzero behind
    simpa [Tunnel.orCut] using hdone
  · next hmsg =>
    split
    swap
    · next hquery =>
      have hdone := hread [] tunnel.client none rfl (by simp [hheader, hlen]) fun behind => by
        rw [commandKey, opcodeOf_append hheader, if_neg hmsg, if_neg fun h => hquery h.1]
      exact ensures_pure (by simpa [Tunnel.orCut] using hdone)
    next hquery =>
    refine ensures_seq (ensures_appendExact hcut fun flags rest hclient hflags hfits => ?_)
    refine ensures_seq (ensures_appendCstring hcut fun collection rest₁ hcollection hzero₁
      hfits₁ => ?_)
    refine ensures_seq (ensures_appendExact hcut fun counts rest₂ hcounts hlen₂ hfits₂ => ?_)
    refine ensures_seq (ensures_readMongodbCommandKey hcut fun size key rest₃ hkey hsize hzero₃
      hfits₃ => ensures_pure ?_)
    subst hkey hcounts hcollection
    have hdone := hread (flags ++ (collection ++ 0 :: (counts ++ (size ++ (key ++ [0]))))) rest₃ _
      (by simp [hclient]) (by simp at hfits₃ ⊢; omega)
      fun behind => by
        simpa using commandKey_opQuery hheader hquery hflags hzero₁ hlen₂ hsize hzero₃ behind
    simpa [Tunnel.orCut] using hdone

/-- What is known of a message that passes when its front has been read. -/
structure PrefixRead (message : Bytes) (found : MongodbPrefix) (rest : Bytes) : Prop where
  split : message = found.bytes ++ rest
  header : 16 ≤ found.bytes.length
  declared : declaredLength message = found.messageLen
  bounded : found.bytes.length ≤ found.messageLen
  passes : ∀ behind, Passes (found.bytes ++ behind)

theorem ensures_readMongodbPrefix {returned : Option MongodbPrefix → Tunnel → Prop}
    (hcut : ∀ atFault, cut atFault tunnel.backend tunnel.activity)
    (hend : tunnel.client = [] → returned none tunnel)
    (hread : ∀ found rest, PrefixRead tunnel.client found rest →
      returned (some found) { tunnel with client := rest }) :
    Ensures readMongodbPrefix (Tunnel.orCut returned cut) tunnel := by
  refine ensures_seq (ensures_read hcut (fun hclient => ensures_pure (hend hclient)) ?_)
  intro b rest hclient
  refine ensures_seq (ensures_readExact (fun _ => hcut) fun more rest' hmore hlen => ?_)
  dsimp only at hmore ⊢
  subst hmore
  rw [List.singleton_append]
  have hheader : (b :: more).length = 16 := by simp [hlen]
  have hmessage : tunnel.client = (b :: more) ++ rest' := hclient
  split
  · exact ensures_fail (hcut _)
  next hrange =>
  split
  · exact ensures_fail (hcut _)
  next hcompressed =>
  refine ensures_seq (ensures_readMongodbCommand ?_ hheader ?_ ?_)
  · exact hcut
  · omega
  intro front rest'' command hfront hbounded hcommand
  dsimp only at hfront
  split
  · exact ensures_fail (hcut _)
  next hidentity =>
  refine ensures_pure (hread _ rest'' ⟨?_, ?_, ?_, hbounded, fun behind => ?_⟩)
  · rw [hmessage, hfront, List.append_assoc]
  · simp [hlen]
  · rw [hmessage, declaredLength_append (by omega)]
    exact (Int.toNat_of_nonneg (by omega)).symm
  rw [List.append_assoc, Passes, opcodeOf_append hheader, hcommand]
  refine ⟨hcompressed, fun key hkey => ?_⟩
  rw [Option.any_eq_true, not_exists] at hidentity
  have hthis := hidentity key
  rw [not_and, Bool.not_eq_true] at hthis
  exact hthis hkey

end Reads

/-! ## Whole messages that pass -/

def mongodbWire (messages : List MongodbMessage) : Bytes := messages.flatMap (·.bytes)

/-- What the backend was sent: whole messages that pass, and a front of the next message, which then
passes too.  The front is a whole message only if the backend has failed on it, and short of one
only if the backend has failed or the client's stream has ended there. -/
def MongodbSent (client : Bytes) (atFault : Bool) (sent : Bytes) : Prop :=
  ∃ messages part rest, client = mongodbWire messages ++ rest ∧ sent = mongodbWire messages ++ part ∧
    part <+: rest ∧ (∀ message ∈ messages, Passes message.bytes) ∧
    (part ≠ [] → Passes (rest.take (declaredLength rest).toNat) ∧
      part.length ≤ declaredLength rest ∧
      (atFault = false → part = rest ∧ part.length < declaredLength rest))

/-- Between two turns of the loop the backend was sent whole messages. -/
structure MongodbAligned (client : Bytes) (messages : List MongodbMessage) (tunnel : Tunnel) :
    Prop where
  received : client = mongodbWire messages ++ tunnel.client
  sent : tunnel.backend = mongodbWire messages
  passes : ∀ message ∈ messages, Passes message.bytes

variable {messages : List MongodbMessage} {found : MongodbPrefix} {atFault : Bool}

namespace MongodbAligned

variable {client : Bytes}

variable (h : MongodbAligned client messages tunnel)
include h

theorem mongodbSent (atFault : Bool) : MongodbSent client atFault tunnel.backend :=
  ⟨messages, [], tunnel.client, h.received, by simp [h.sent], List.nil_prefix, h.passes, by simp⟩

variable (hfound : PrefixRead tunnel.client found rest)
include hfound

/-- A front of the message under way has been sent. -/
theorem begun {part : Bytes} (hpart : part <+: tunnel.client)
    (hlen : part.length ≤ found.messageLen)
    (hend : atFault = false → part = tunnel.client ∧ part.length < found.messageLen) :
    MongodbSent client atFault (tunnel.backend ++ part) := by
  refine ⟨messages, part, tunnel.client, h.received, by rw [h.sent], hpart, h.passes, fun _ => ?_⟩
  rw [hfound.declared]
  refine ⟨?_, by exact_mod_cast hlen, fun hfault => ?_⟩
  · rw [Int.toNat_natCast, hfound.split, List.take_append, List.take_of_length_le hfound.bounded]
    exact hfound.passes _
  · exact ⟨(hend hfault).1, by exact_mod_cast (hend hfault).2⟩

/-- The message under way has been sent. -/
theorem sent_message {body after : Bytes} (hrest : rest = body ++ after)
    (hbody : found.bytes.length + body.length = found.messageLen) (activity : List ActivityEvent) :
    ∃ message : MongodbMessage, message.bytes = found.bytes ++ body ∧
      MongodbAligned client (messages ++ [message])
        ⟨after, tunnel.backend ++ found.bytes ++ body, activity⟩ := by
  have hheader := hfound.header
  have hdeclared : declaredLength (found.bytes ++ body) = (found.bytes ++ body).length := by
    rw [declaredLength_append (by omega), List.length_append, hbody, ← hfound.declared,
      hfound.split, declaredLength_append (by omega)]
  refine ⟨⟨found.bytes ++ body, by simp; omega, hdeclared⟩, rfl, ?_, ?_, ?_⟩
  · rw [h.received, hfound.split, hrest]
    simp [mongodbWire]
  · simp [mongodbWire, h.sent]
  intro message hmessage
  rcases List.mem_append.mp hmessage with hold | hnew
  · exact h.passes message hold
  · obtain rfl := List.mem_singleton.mp hnew
    exact hfound.passes body

end MongodbAligned

theorem ensures_refuseMongodbMessage {α : Type} {returned : α → Tunnel → Prop} {error : ListenerError}
    (hcut : ∀ atFault activity, cut atFault tunnel.backend activity) :
    Ensures (refuseMongodbMessage error) (Tunnel.orCut returned cut) tunnel := by
  rw [refuseMongodbMessage.eq_def]
  split
  · exact ensures_reject (hcut _ _)
  · exact ensures_fail (hcut _ _)

variable {client : Bytes}

theorem ensures_forwardMongodbRest (h : MongodbAligned client messages tunnel)
    (hfound : PrefixRead tunnel.client found rest) (activity : List ActivityEvent) :
    Ensures (forwardMongodbRest found)
      (Tunnel.orCut
        (fun _ after => (∃ messages, MongodbAligned client messages after) ∧
          after.client.length < tunnel.client.length)
        fun atFault sent _ => MongodbSent client atFault sent) ⟨rest, tunnel.backend, activity⟩ := by
  have hbounded := hfound.bounded
  refine ensures_seq (ensures_writeAll (fun k hk => ?_) ?_)
  · refine h.begun hfound ?_ (by rw [List.length_take]; omega) (by simp)
    rw [hfound.split]
    exact (List.take_prefix _ _).trans (List.prefix_append _ _)
  have hbegun : ∀ front after, rest = front ++ after →
      front.length ≤ found.messageLen - found.bytes.length → ∀ atFault, (atFault = false →
        after = [] ∧ front.length < found.messageLen - found.bytes.length) →
      MongodbSent client atFault (tunnel.backend ++ found.bytes ++ front) := by
    intro front after hrest hfront atFault hend
    rw [List.append_assoc]
    refine h.begun hfound ?_ (by rw [List.length_append]; omega) fun hfault => ?_
    · rw [hfound.split, hrest, ← List.append_assoc]
      exact List.prefix_append _ _
    · obtain ⟨rfl, hshort⟩ := hend hfault
      rw [hfound.split, hrest, List.append_nil, List.length_append]
      exact ⟨rfl, by omega⟩
  refine ensures_seq (ensures_copyExact ?_ ?_ ?_)
  · intro front after hrest hshort atFault hend
    exact hbegun front after hrest (Nat.le_of_lt hshort) atFault fun hfault =>
      ⟨hend hfault, hshort⟩
  · intro front after hrest hlen
    exact hbegun front after hrest (Nat.le_of_eq hlen) true (by simp)
  intro body after hrest hlen
  have hshorter : after.length < tunnel.client.length := by
    have hheader := hfound.header
    rw [hfound.split, List.length_append, show rest = body ++ after from hrest, List.length_append]
    omega
  have hnext := h.sent_message hfound hrest (by omega)
  split
  · refine ensures_accept ?_
    exact ⟨(hnext _).imp' (fun message => messages ++ [message]) fun _ h => h.2, hshorter⟩
  · exact ensures_pure
      ⟨(hnext _).imp' (fun message => messages ++ [message]) fun _ h => h.2, hshorter⟩

/-- **One turn of the loop** sends one more message that passes, or ends the session. -/
theorem ensures_forwardMongodbMessage (h : MongodbAligned client messages tunnel) :
    Ensures forwardMongodbMessage
      (Tunnel.orCut
        (fun next after => next.elim
          (fun _ => (∃ messages, MongodbAligned client messages after) ∧
            after.client.length < tunnel.client.length)
          fun _ => MongodbAligned client messages after ∧ after.client = [])
        fun atFault sent _ => MongodbSent client atFault sent) tunnel := by
  have hread : Ensures readMongodbPrefix
      (Tunnel.orCut
        (fun found after => found.elim (after = tunnel ∧ tunnel.client = []) fun found =>
          PrefixRead tunnel.client found after.client ∧ after.backend = tunnel.backend)
        fun _ sent _ => sent = tunnel.backend) tunnel :=
    ensures_readMongodbPrefix (fun _ => rfl) (fun hend => ⟨rfl, hend⟩)
      fun _ _ hfound => ⟨hfound, rfl⟩
  refine ensures_bind (ensures_attempt (hread.mono ?_ ?_ ?_))
  · rintro (_ | found) after hafter
    · obtain ⟨rfl, hend⟩ := hafter
      exact ensures_seq (ensures_shutdown (h.mongodbSent true)
        (ensures_pure (by exact ⟨h, hend⟩)))
    obtain ⟨hfound, hbackend⟩ := hafter
    obtain ⟨rest, backend, activity⟩ := after
    obtain rfl : backend = tunnel.backend := hbackend
    refine ensures_seq ((ensures_forwardMongodbRest h hfound activity).mono ?_ ?_ ?_)
    · exact fun _ after hdone => ensures_pure hdone
    · exact fun _ _ => id
    · exact fun _ => id
  · rintro error after hsent
    refine ensures_refuseMongodbMessage fun atFault _ => ?_
    rw [show after.backend = tunnel.backend from hsent]
    exact h.mongodbSent atFault
  · intro after hsent
    have hcut := h.mongodbSent true
    rw [← show after.backend = tunnel.backend from hsent] at hcut
    exact hcut

theorem ensures_uploadMongodb (client : Bytes) :
    Ensures uploadMongodb
      (Tunnel.orCut (fun _ after => MongodbSent client false after.backend ∧ after.backend = client)
        fun atFault sent _ => MongodbSent client atFault sent) ⟨client, [], []⟩ := by
  refine ensures_bind (ensures_look (ensures_loop
    (fun _ tunnel => ∃ messages, MongodbAligned client messages tunnel) (fun tunnel =>
      tunnel.client.length) ?_ ⟨[], rfl, rfl, by simp⟩ (Nat.lt_succ_self _)))
  rintro _ tunnel ⟨messages, h⟩
  refine (ensures_forwardMongodbMessage h).mono ?_ (fun _ _ => id) fun _ => id
  rintro (_ | _) after hafter
  · exact hafter
  · obtain ⟨haligned, hend⟩ := hafter
    refine ⟨haligned.mongodbSent false, ?_⟩
    rw [haligned.sent, haligned.received, hend, List.append_nil]

/-! ## The first message that does not pass

Messages say how long they are, so a byte string is cut into messages in one way only. -/

theorem MongodbMessage.eq_of_append {a b : MongodbMessage} {x y : Bytes}
    (h : a.bytes ++ x = b.bytes ++ y) : a.bytes = b.bytes ∧ x = y := by
  have ha := a.header
  have hb := b.header
  have hlen : (a.bytes.length : ℤ) = b.bytes.length := by
    have hdeclared := congrArg declaredLength h
    rw [declaredLength_append (by omega), declaredLength_append (by omega)] at hdeclared
    rw [← a.declared, ← b.declared, declaredLength, declaredLength, hdeclared]
  exact List.append_inj h (by exact_mod_cast hlen)

variable {good : List MongodbMessage}

/-- Two ways of cutting messages off one byte string: one list of messages goes on where the other
one ends. -/
theorem mongodbWire_append {x y : Bytes} (h : mongodbWire good ++ x = mongodbWire messages ++ y) :
    (∃ more, mongodbWire good = mongodbWire messages ++ mongodbWire more ∧
      y = mongodbWire more ++ x) ∨
    ∃ message ∈ messages, ∃ behind, x = message.bytes ++ behind := by
  induction good generalizing messages with
  | nil =>
    cases messages with
    | nil => exact .inl ⟨[], rfl, h.symm⟩
    | cons message messages =>
      exact .inr ⟨message, List.mem_cons_self, mongodbWire messages ++ y,
        by simpa [mongodbWire] using h⟩
  | cons first good ih =>
    cases messages with
    | nil => exact .inl ⟨first :: good, rfl, h.symm⟩
    | cons message messages =>
      have hcons : first.bytes ++ (mongodbWire good ++ x) =
          message.bytes ++ (mongodbWire messages ++ y) := by
        simpa [mongodbWire] using h
      obtain ⟨hbytes, hrest⟩ := MongodbMessage.eq_of_append hcons
      rcases ih hrest with ⟨more, hgood, hy⟩ | ⟨other, hother, hx⟩
      · refine .inl ⟨more, ?_, hy⟩
        have happend : first.bytes ++ mongodbWire good =
            message.bytes ++ (mongodbWire messages ++ mongodbWire more) := by
          rw [hbytes, hgood]
        simpa [mongodbWire] using happend
      · exact .inr ⟨other, List.mem_cons_of_mem _ hother, hx⟩

/-- **Nothing of a message that does not pass is sent**, nor anything behind it. -/
theorem MongodbSent.stops {sent : Bytes} (h : MongodbSent client atFault sent)
    {bad : MongodbMessage} {tail : Bytes}
    (hclient : client = mongodbWire good ++ (bad.bytes ++ tail)) (hbad : ¬ Passes bad.bytes) :
    sent <+: mongodbWire good := by
  obtain ⟨messages, part, rest, hreceived, rfl, hpart, hpasses, hbegun⟩ := h
  rcases mongodbWire_append (hclient.symm.trans hreceived) with
    ⟨more, hgood, hrest⟩ | ⟨message, hmessage, behind, hbytes⟩
  swap
  · obtain ⟨heq, -⟩ := MongodbMessage.eq_of_append hbytes
    exact absurd (heq ▸ hpasses message hmessage) hbad
  rw [hgood, List.prefix_append_right_inj]
  cases more with
  | nil =>
    have hnone : part = [] := by
      by_contra hsome
      have hbegun := (hbegun hsome).1
      have hheader := bad.header
      rw [show rest = bad.bytes ++ tail from hrest, declaredLength_append (by omega),
        ← declaredLength, bad.declared, Int.toNat_natCast, List.take_left] at hbegun
      exact hbad hbegun
    simp [hnone]
  | cons next more =>
    rcases eq_or_ne part [] with rfl | hsome
    · exact List.nil_prefix
    have hrest : rest = next.bytes ++ (mongodbWire more ++ (bad.bytes ++ tail)) := by
      simpa [mongodbWire] using hrest
    have hlen := (hbegun hsome).2.1
    have hheader := next.header
    rw [hrest, declaredLength_append (by omega), ← declaredLength, next.declared] at hlen
    have hnext : part <+: next.bytes :=
      List.prefix_of_prefix_length_le hpart (hrest ▸ List.prefix_append _ _)
        (by exact_mod_cast hlen)
    exact hnext.trans (List.prefix_append _ _)

/-- **The tunnel forwards only whole messages that keep the identity.**  Whatever the client sends and
whatever the peers do, the backend is sent messages that pass, in the client's order, and a front of
the next one; the first message that does not pass ends the upload before a byte of it is sent.
The front that is read of a message is never longer than the message. -/
theorem mongodb_tunnel_keeps_identity (client : Bytes) :
    Ensures uploadMongodb
      (Tunnel.orCut (fun _ after => MongodbSent client false after.backend ∧ after.backend = client)
        fun atFault sent _ => MongodbSent client atFault sent ∧
          ∀ good (bad : MongodbMessage) tail, client = mongodbWire good ++ (bad.bytes ++ tail) → ¬ Passes bad.bytes →
            sent <+: mongodbWire good) ⟨client, [], []⟩ ∧
    ∀ tunnel, Ensures readMongodbPrefix
      ⟨fun found _ => ∀ front ∈ found, front.bytes.length ≤ front.messageLen, fun _ _ => True,
        fun _ => True⟩ tunnel := by
  constructor
  · refine (ensures_uploadMongodb client).mono (fun _ _ => id) ?_ ?_
    · exact fun _ _ hsent => ⟨hsent, fun good bad tail => hsent.stops⟩
    · exact fun _ hsent => ⟨hsent, fun good bad tail => hsent.stops⟩
  intro tunnel
  have hread : Ensures readMongodbPrefix
      (Tunnel.orCut (fun found _ => ∀ front ∈ found, front.bytes.length ≤ front.messageLen)
        fun _ _ _ => True) tunnel := by
    refine ensures_readMongodbPrefix (fun _ => trivial) (fun _ => by simp) fun found rest hfound => ?_
    exact fun front hfront => Option.some.inj hfront ▸ hfound.bounded
  exact hread.mono (fun _ _ => id) (fun _ _ => id) fun _ => id

/-- An `OP_MSG` with one element, of the key given. -/
def opMsg (key : String) : Bytes :=
  let element := 0x10 :: ascii key ++ [0, 1, 0, 0, 0, 0]
  let body := [0, 0, 0, 0, 0, (element.length + 4).toUInt8, 0, 0, 0] ++ element
  [(body.length + 16).toUInt8, 0, 0, 0, 1, 0, 0, 0, 0, 0, 0, 0, 0xdd, 0x07, 0, 0] ++ body

def pingMessage : MongodbMessage := ⟨opMsg "ping", by decide, by decide⟩

def logoutMessage : MongodbMessage := ⟨opMsg "LogOut", by decide, by decide⟩

theorem logout_not_sent :
    (uploadMongodb ⟨⟨opMsg "ping" ++ opMsg "LogOut", [], []⟩, []⟩).2.state.backend <+:
      mongodbWire [pingMessage] :=
  (((mongodb_tunnel_keeps_identity (opMsg "ping" ++ opMsg "LogOut")).1.failed
    (show _ = Outcome.failed (.identitySwitchRejected .mongodb) by decide +kernel)).2
      [pingMessage] logoutMessage [] (by decide) (by decide))

end DatabasesEverywhere.Gateway
