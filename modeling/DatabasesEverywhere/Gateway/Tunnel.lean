import DatabasesEverywhere.Databases.Protocol
import DatabasesEverywhere.Foundations.Loops
import DatabasesEverywhere.Foundations.Streams

/-!
# Gateway/Tunnel — the upload side of an inspected session

    client ──▸ gateway ──▸ backend
                  └──▸ activity

An inspected session reads the client's messages one by one and writes those it lets pass to the
backend.  The tunnel's state is what the client has still to send, what the backend was sent, and
the events reported to the activity counter.  Every read and write is a step of the host: it may
fail, and it may wait forever — for a silent peer, or because the session was given up.
-/

open Foundations

namespace DatabasesEverywhere.Gateway

/-! ## What a command does -/

inductive OperationKind
  | read | write | ddl | other
  deriving DecidableEq

def sqlReadKeywords : List Bytes := ["SELECT", "SHOW", "DESCRIBE", "DESC", "EXPLAIN"].map ascii

def sqlWriteKeywords : List Bytes :=
  ["INSERT", "UPDATE", "DELETE", "REPLACE", "MERGE", "LOAD"].map ascii

def sqlDdlKeywords : List Bytes :=
  ["CREATE", "ALTER", "DROP", "TRUNCATE", "RENAME", "GRANT", "REVOKE"].map ascii

def mongodbReadCommands : List Bytes :=
  ["find", "getMore", "aggregate", "count", "distinct"].map ascii

def mongodbWriteCommands : List Bytes :=
  ["insert", "update", "delete", "findAndModify", "bulkWrite"].map ascii

def mongodbDdlCommands : List Bytes :=
  ["create", "drop", "renameCollection", "createIndexes", "dropIndexes"].map ascii

def mongodbIdentityCommands : List Bytes :=
  ["saslStart", "saslContinue", "authenticate", "logout", "getnonce", "hello", "isMaster",
    "ismaster", "$query"].map ascii

def matchesAnyIgnoreCase (word : Bytes) (candidates : List Bytes) : Bool :=
  candidates.any (eqIgnoreAsciiCase word)

/-- The kind of a word, from the words that read, write and define. -/
def classifyWord (reads writes ddls : List Bytes) (word : Bytes) : OperationKind :=
  if matchesAnyIgnoreCase word reads then .read
  else if matchesAnyIgnoreCase word writes then .write
  else if matchesAnyIgnoreCase word ddls then .ddl
  else .other

def classifyMongodb : Bytes → OperationKind :=
  classifyWord mongodbReadCommands mongodbWriteCommands mongodbDdlCommands

/-- What follows the first occurrence of two bytes. -/
def afterPair (a b : UInt8) : Bytes → Option Bytes
  | x :: y :: rest => if x = a ∧ y = b then some rest else afterPair a b (y :: rest)
  | _ => none

/-- One turn of the loop of `sql_keyword`: a comment is left behind, or the word is there, or there
is none. -/
def keywordStep (sql : Bytes) : Except Unit (Bytes ⊕ Bytes) :=
  match sql.dropWhile fun b => isAsciiWhitespace b || b = Ascii.semicolon with
  | [] => .error ()
  | first :: rest =>
    if first = Ascii.hash || (first = Ascii.dash && rest.head? = some Ascii.dash) then
      match (first :: rest).dropWhile (· ≠ Ascii.newline) with
      | [] => .error ()
      | _ :: rest => .ok (.inl rest)
    else if first = Ascii.slash && rest.head? = some Ascii.star then
      match afterPair Ascii.star Ascii.slash rest.tail with
      | none => .error ()
      | some rest => .ok (.inl rest)
    else
      match (first :: rest).takeWhile fun b => isAsciiAlphanumeric b || b = Ascii.underscore with
      | [] => .error ()
      | keyword => .ok (.inr keyword)

/-- Every turn leaves at least one byte behind (`keywordStep_shorter`), so the fuel lasts. -/
def sqlKeyword (sql : Bytes) : Option Bytes :=
  (iterate keywordStep () (sql.length + 1) sql).toOption

def classifySql (sql : Bytes) : OperationKind :=
  (sqlKeyword sql).elim .other (classifyWord sqlReadKeywords sqlWriteKeywords sqlDdlKeywords)

theorem afterPair_length {a b : UInt8} {bytes rest : Bytes} (h : afterPair a b bytes = some rest) :
    rest.length < bytes.length := by
  fun_induction afterPair a b bytes with
  | case1 x y bytes hhere =>
    cases h
    simp only [List.length_cons]
    omega
  | case2 x y bytes hhere ih =>
    have := ih h
    simp only [List.length_cons] at this ⊢
    omega
  | case3 => cases h

theorem keywordStep_shorter {sql rest : Bytes} (h : keywordStep sql = .ok (.inl rest)) :
    rest.length < sql.length := by
  have hstart := (List.dropWhile_suffix (l := sql)
    fun b => isAsciiWhitespace b || b = Ascii.semicolon).length_le
  unfold keywordStep at h
  split at h
  · cases h
  next first after hfirst =>
  rw [hfirst, List.length_cons] at hstart
  split at h
  · split at h
    · cases h
    next newline line hline =>
    obtain rfl := Sum.inl.inj (Except.ok.inj h)
    have hend := (List.dropWhile_suffix (l := first :: after) (· ≠ Ascii.newline)).length_le
    rw [hline, List.length_cons, List.length_cons] at hend
    omega
  · split at h
    · split at h
      · cases h
      next comment hcomment =>
      obtain rfl := Sum.inl.inj (Except.ok.inj h)
      have hend := afterPair_length hcomment
      rw [List.length_tail] at hend
      omega
    · split at h <;> cases h

/-! ## The tunnel -/

inductive IoError
  | unexpectedEof (message : String)
  | wouldBlock (message : String)
  | timedOut (message : String)
  | client
  | backend
  deriving DecidableEq

inductive ListenerError
  | io (error : IoError)
  | identitySwitchRejected (protocol : Protocol)
  | malformedMongodbMessage
  | sharedStorageCommandRejected (reason : String)
  deriving DecidableEq

inductive ActivityEvent
  | accepted (kind : OperationKind)
  | rejected (kind : OperationKind)
  deriving DecidableEq

structure Tunnel where
  client : Bytes
  backend : Bytes
  activity : List ActivityEvent
  deriving DecidableEq

/-- What the gateway does with the bytes of a client. -/
abbrev Upload := Program Tunnel ListenerError

namespace Tunnel

def clientRead : Port Tunnel where
  bytes := client
  set tunnel rest := { tunnel with client := rest }
  set_bytes _ := rfl

def backendWrite : Port Tunnel where
  bytes := backend
  set tunnel sent := { tunnel with backend := sent }
  set_bytes _ := rfl

def readExact (n : ℕ) : Upload Bytes :=
  .readExact clientRead (.io .client) (.io (.unexpectedEof "early eof")) n

/-- `read` into a buffer of one byte, which is left empty at the end of the stream. -/
def read : Upload Bytes := do
  let tunnel ← .look
  .step (.io .client) (fun tunnel => { tunnel with client := tunnel.client.drop 1 })
    fun done tunnel => { tunnel with client := tunnel.client.drop (min done 1) }
  pure (tunnel.client.take 1)

def writeAll (data : Bytes) : Upload Unit :=
  .writeAll backendWrite (.io .backend) data

/-- A step of the backend that moves no bytes. -/
def flush : Upload Unit := .step (.io .backend) id fun _ => id

def shutdown : Upload Unit := flush

def accept (kind : OperationKind) : Upload Unit :=
  .update fun tunnel => { tunnel with activity := tunnel.activity ++ [.accepted kind] }

def rejectKind (kind : OperationKind) : Upload Unit :=
  .update fun tunnel => { tunnel with activity := tunnel.activity ++ [.rejected kind] }

/-- `copy_exact`: `io::copy` of the next bytes, which flushes when it has written them all.  What was
read but not written when the copy is cut is lost with the session. -/
def copyExact (bytes : ℕ) (eof : String) : Upload Unit := do
  let tunnel ← .look
  let payload := tunnel.client.take bytes
  .step (.io .backend)
    (fun tunnel => { tunnel with
      client := tunnel.client.drop bytes, backend := tunnel.backend ++ payload })
    fun done tunnel => { tunnel with
      client := tunnel.client.drop bytes
      backend := tunnel.backend ++ payload.take (min done (bytes - 1)) }
  if payload.length < bytes then .fail (.io (.unexpectedEof eof)) else flush

/-! ## What the steps ensure

A session that fails or waits leaves behind what the backend was sent and the events so far;
`cut` says what holds of them.  It is told whether the backend may be the one at fault: a session cut
by its client, or by the gateway's own checks, has not stopped in the middle of a write. -/

end Tunnel

def ListenerError.blamesBackend : ListenerError → Bool
  | .io .backend => true
  | .io (.timedOut _) => true
  | _ => false

namespace Tunnel

variable {α : Type} {tunnel : Tunnel} {returned : α → Tunnel → Prop}
  {cut : Bool → Bytes → List ActivityEvent → Prop}

/-- What holds when a program returns, and when it is cut. -/
def orCut (returned : α → Tunnel → Prop) (cut : Bool → Bytes → List ActivityEvent → Prop) :
    Post Tunnel ListenerError α where
  returned := returned
  failed error tunnel := cut error.blamesBackend tunnel.backend tunnel.activity
  stopped tunnel := cut true tunnel.backend tunnel.activity

/-- The rule of sequences, with one `cut` for both parts. -/
theorem ensures_seq {β : Type} {program : Upload β}
    {next : β → Upload α}
    (h : Ensures program (orCut (fun result => Ensures (next result) (orCut returned cut)) cut)
      tunnel) :
    Ensures (program >>= next) (orCut returned cut) tunnel :=
  ensures_bind h

theorem ensures_readExact {returned : Bytes → Tunnel → Prop} {n : ℕ}
    (hcut : 0 < n → ∀ atFault, cut atFault tunnel.backend tunnel.activity)
    (hread : ∀ front rest, tunnel.client = front ++ rest → front.length = n →
      returned front { tunnel with client := rest }) :
    Ensures (readExact n) (orCut returned cut) tunnel :=
  Foundations.ensures_readExact hread (fun hpos _ _ => hcut hpos _)
    (fun hshort => hcut (Nat.zero_lt_of_lt hshort) _) fun hpos _ _ => hcut hpos _

theorem ensures_read {returned : Bytes → Tunnel → Prop}
    (hcut : ∀ atFault, cut atFault tunnel.backend tunnel.activity)
    (hend : tunnel.client = [] → returned [] tunnel)
    (hread : ∀ b rest, tunnel.client = b :: rest → returned [b] { tunnel with client := rest }) :
    Ensures read (orCut returned cut) tunnel := by
  refine ensures_bind (ensures_look (ensures_bind (ensures_step ?_ (fun _ => hcut _) fun _ => hcut _)))
  refine ensures_pure ?_
  obtain ⟨client, backend, activity⟩ := tunnel
  cases client with
  | nil => exact hend rfl
  | cons b rest => exact hread b rest rfl

theorem ensures_writeAll {returned : Unit → Tunnel → Prop} {data : Bytes}
    (hpart : ∀ k < data.length, cut true (tunnel.backend ++ data.take k) tunnel.activity)
    (hwritten : returned () { tunnel with backend := tunnel.backend ++ data }) :
    Ensures (writeAll data) (orCut returned cut) tunnel :=
  Foundations.ensures_writeAll hwritten hpart hpart

theorem ensures_flush {returned : Unit → Tunnel → Prop}
    (hcut : cut true tunnel.backend tunnel.activity) (hdone : returned () tunnel) :
    Ensures flush (orCut returned cut) tunnel :=
  ensures_step hdone (fun _ => hcut) fun _ => hcut

theorem ensures_shutdown {returned : Unit → Tunnel → Prop}
    (hcut : cut true tunnel.backend tunnel.activity) (hdone : returned () tunnel) :
    Ensures shutdown (orCut returned cut) tunnel :=
  ensures_flush hcut hdone

/-- A deadline leaves behind what a wait without end does. -/
theorem ensures_within {program : Upload α} {late : ListenerError}
    (hlate : late.blamesBackend = true) (h : Ensures program (orCut returned cut) tunnel) :
    Ensures (program.within late) (orCut returned cut) tunnel := by
  refine Foundations.ensures_within (h.mono (fun _ _ => id) (fun _ _ => id) fun after hafter => ?_)
  change cut late.blamesBackend after.backend after.activity
  rw [hlate]
  exact hafter

theorem ensures_accept {returned : Unit → Tunnel → Prop} {kind : OperationKind}
    (h : returned () { tunnel with activity := tunnel.activity ++ [.accepted kind] }) :
    Ensures (accept kind) (orCut returned cut) tunnel :=
  ensures_update h

/-- An operation is counted as rejected and the session ends. -/
theorem ensures_reject {kind : OperationKind} {error : ListenerError}
    (h : cut error.blamesBackend tunnel.backend (tunnel.activity ++ [.rejected kind])) :
    Ensures (rejectKind kind >>= fun _ => .fail error) (orCut returned cut) tunnel :=
  ensures_bind (ensures_update (ensures_fail h))

/-- A copy that is cut has written less than it was asked for, unless the backend fails to flush.
If the backend is not at fault, the client's stream has ended and was copied. -/
theorem ensures_copyExact {returned : Unit → Tunnel → Prop} {bytes : ℕ} {eof : String}
    (hpart : ∀ front rest, tunnel.client = front ++ rest → front.length < bytes →
      ∀ atFault, (atFault = false → rest = []) →
      cut atFault (tunnel.backend ++ front) tunnel.activity)
    (hflush : ∀ front rest, tunnel.client = front ++ rest → front.length = bytes →
      cut true (tunnel.backend ++ front) tunnel.activity)
    (hcopied : ∀ front rest, tunnel.client = front ++ rest → front.length = bytes →
      returned () { tunnel with client := rest, backend := tunnel.backend ++ front }) :
    Ensures (copyExact bytes eof) (orCut returned cut) tunnel := by
  have hsplit := (List.take_append_drop bytes tunnel.client).symm
  have hcut : ∀ done, cut true
      (tunnel.backend ++ (tunnel.client.take bytes).take (min done (bytes - 1)))
      tunnel.activity := by
    intro done
    rw [List.take_take]
    have hfront := (List.take_append_drop (min (min done (bytes - 1)) bytes) tunnel.client).symm
    have hlen : (tunnel.client.take (min (min done (bytes - 1)) bytes)).length ≤
        min (min done (bytes - 1)) bytes := List.length_take_le ..
    rcases Nat.eq_zero_or_pos bytes with hzero | hpos
    · exact hflush _ _ hfront (by omega)
    · exact hpart _ _ hfront (by omega) true (by simp)
  refine ensures_bind (ensures_look (ensures_bind (ensures_step ?_ hcut hcut)))
  split
  · next hshort =>
    rw [List.length_take] at hshort
    exact ensures_fail (hpart _ _ hsplit (by rw [List.length_take]; omega) _
      fun _ => List.drop_eq_nil_of_le (by omega))
  · next hlong =>
    have hlen : (tunnel.client.take bytes).length = bytes :=
      le_antisymm (List.length_take_le ..) (Nat.not_lt.mp hlong)
    exact ensures_flush (hflush _ _ hsplit hlen) (hcopied _ _ hsplit hlen)

end Tunnel

end DatabasesEverywhere.Gateway
