import DatabasesEverywhere.Foundations.Codes
import DatabasesEverywhere.Foundations.Result

/-!
# Gateway/PostgresStartup — the startup packet that routes a PostgreSQL client

    packet = length ‖ code ‖ key ∅ value ∅ … key ∅ value ∅ ∅

`parseStartupRoute` reads the identity the gateway routes on, and `startupPacketWithDatabase`
rewrites the packet to name the routed database.  The parser keeps the *last* occurrence of a key
and stops at the first empty one; the rewriter replaces the *first* `database`, or splices one in
before the last byte.  `startupPacketWithDatabase_route_iff` says exactly when the two agree.
-/

open Foundations

namespace DatabasesEverywhere.PostgresStartup

/-! ## The packet -/

def startupHeaderLen : ℕ := 8

structure StartupRoute where
  user : Text
  database : Option Text
  deriving DecidableEq

inductive PostgresParseError
  | tooShort
  | invalidLength
  | missingField (field : String)
  | invalidUtf8
  deriving DecidableEq

/-! ## The parser -/

variable (bytes : Bytes)

/-- `from_utf8`, with the parser's error. -/
def parseText : Except PostgresParseError Text :=
  match Text.fromUtf8 bytes with
  | some text => .ok text
  | none => .error .invalidUtf8

/-- The key/value loop over the NUL-separated parts; the newest binding is in front, so a lookup
finds the last occurrence of a key, as a `HashMap` insertion leaves it. -/
def parseFields : List Bytes → List (Text × Text) → Except PostgresParseError (List (Text × Text))
  | [], fields => .ok fields
  | [_], fields => .ok fields
  | key :: value :: parts, fields =>
    if key.isEmpty then .ok fields
    else do
      let key ← parseText key
      let value ← parseText value
      parseFields parts ((key, value) :: fields)

def userKey : Text := ⟨ascii "user", by decide⟩

def databaseKey : Text := ⟨ascii "database", by decide⟩

def parseStartupRoute : Except PostgresParseError StartupRoute :=
  if bytes.length < startupHeaderLen then .error .tooShort
  else
    let declaredLen := fromBigEndian (bytes.take 4)
    if declaredLen ≠ bytes.length ∨ declaredLen < startupHeaderLen then .error .invalidLength
    else do
      let fields ← parseFields ((bytes.drop startupHeaderLen).splitOn 0) []
      match fields.lookup userKey with
      | none => .error (.missingField "user")
      | some user =>
        .ok ⟨user, (fields.lookup databaseKey).filter fun value => !value.bytes.isEmpty⟩

/-! ## The rewriter -/

def findNul (offset : ℕ) : Except PostgresParseError ℕ :=
  if offset ≤ bytes.length then
    match (bytes.drop offset).findIdx? (· == 0) with
    | some relative => .ok (offset + relative)
    | none => .error .invalidLength
  else .error .invalidLength

def setPacketLength (packet : Bytes) : Except PostgresParseError Bytes :=
  if packet.length < 2 ^ 32 then .ok (bigEndian 4 packet.length ++ packet.drop 4)
  else .error .invalidLength

/-- The rewriter's scan for the first `database` key: the rewritten packet when there is one,
`none` when the loop falls through.  A pass advances `offset`, so `bytes.length` passes are
enough. -/
def replaceDatabase (bytes : Bytes) (database : Text) :
    ℕ → ℕ → Except PostgresParseError (Option Bytes)
  | 0, _ => .ok none
  | passes + 1, offset =>
    if offset < bytes.length - 1 then do
      let keyEnd ← findNul bytes offset
      if keyEnd = offset then .ok none
      else
        let valueEnd ← findNul bytes (keyEnd + 1)
        if (bytes.take keyEnd).drop offset = ascii "database" then
          let packet ← setPacketLength
            (bytes.take (keyEnd + 1) ++ database.bytes ++ bytes.drop valueEnd)
          .ok (some packet)
        else replaceDatabase bytes database passes (valueEnd + 1)
    else .ok none

def startupPacketWithDatabase (database : Text) : Except PostgresParseError Bytes := do
  let _ ← parseStartupRoute bytes
  if database.bytes.isEmpty || database.bytes.contains 0 || bytes.getLast? != some 0 then
    .error .invalidLength
  else
    match ← replaceDatabase bytes database bytes.length startupHeaderLen with
    | some packet => .ok packet
    | none =>
      setPacketLength
        (bytes.take (bytes.length - 1) ++ ascii "database" ++ [0] ++ database.bytes ++ [0, 0])

/-! ## The parameters of a packet

`pairs` takes the NUL-separated parts two at a time up to the first empty key: the parameters, and
the parts left over.  Both loops are read off it. -/

/-- The parameters at the front of the parts, and the parts after them. -/
def pairs : List Bytes → List (Bytes × Bytes) × List Bytes
  | [] => ([], [])
  | [part] => ([], [part])
  | key :: value :: parts =>
    if key.isEmpty then ([], key :: value :: parts)
    else ((key, value) :: (pairs parts).1, (pairs parts).2)

/-- The startup parameters of a packet, and the parts after the last of them. -/
def parameters (packet : Bytes) : List (Bytes × Bytes) × List Bytes :=
  pairs ((packet.drop startupHeaderLen).splitOn 0)

/-- The value the last parameter with that key carries. -/
def lastValue (key : Bytes) (params : List (Bytes × Bytes)) : Option Bytes :=
  params.reverse.lookup key

/-- A parameter as it stands in a packet. -/
def encodeParameter (param : Bytes × Bytes) : Bytes := param.1 ++ 0 :: (param.2 ++ [0])

/-- A parameter that can stand in a packet: the key is not empty and no byte is NUL. -/
structure IsParameter (param : Bytes × Bytes) : Prop where
  key_ne_nil : param.1 ≠ []
  key_nul : 0 ∉ param.1
  value_nul : 0 ∉ param.2

theorem splitOn_nul_cons {part : Bytes} (h : 0 ∉ part) (rest : Bytes) :
    (part ++ 0 :: rest).splitOn 0 = part :: rest.splitOn 0 := by
  exact List.splitOnP_append_cons_of_forall_mem
    (fun x hx => by simpa using fun e : x = 0 => h (e ▸ hx)) 0 (by simp) rest

variable {params : List (Bytes × Bytes)}

/-- **Encoded parameters are the parameters read back.** -/
theorem pairs_encode (h : ∀ p ∈ params, IsParameter p) (rest : Bytes) :
    pairs ((params.flatMap encodeParameter ++ rest).splitOn 0)
      = (params ++ (pairs (rest.splitOn 0)).1, (pairs (rest.splitOn 0)).2) := by
  induction params with
  | nil => rfl
  | cons p params ih =>
    obtain ⟨hp, hrest⟩ := List.forall_mem_cons.mp h
    have hsplit : ((p :: params).flatMap encodeParameter ++ rest).splitOn 0
        = p.1 :: p.2 :: (params.flatMap encodeParameter ++ rest).splitOn 0 := by
      rw [List.flatMap_cons, encodeParameter]
      simp only [List.append_assoc, List.cons_append, List.nil_append]
      rw [splitOn_nul_cons hp.key_nul, splitOn_nul_cons hp.value_nul]
    rw [hsplit, pairs, if_neg (by simpa using hp.key_ne_nil), ih hrest]
    rfl

/-! ## The parser, read off the parameters -/

/-- The bytes of a parsed binding. -/
def bindingBytes (binding : Text × Text) : Bytes × Bytes := (binding.1.bytes, binding.2.bytes)

variable {bytes}

theorem parseText_eq_ok {text : Text} : parseText bytes = .ok text ↔ text.bytes = bytes := by
  rw [← Text.fromUtf8_eq_some, parseText]
  cases Text.fromUtf8 bytes <;> simp

theorem parseFields_eq_ok {parts : List Bytes} {fields result : List (Text × Text)} :
    parseFields parts fields = .ok result ↔
      ∃ bindings : List (Text × Text),
        bindings.map bindingBytes = (pairs parts).1 ∧ result = bindings.reverse ++ fields := by
  induction parts using pairs.induct generalizing fields with
  | case1 => simp [parseFields, pairs, eq_comm]
  | case2 part => simp [parseFields, pairs, eq_comm]
  | case3 key value parts hkey => simp [parseFields, pairs, hkey, eq_comm]
  | case4 key value parts hkey ih =>
    rw [parseFields, if_neg hkey, pairs, if_neg hkey]
    constructor
    · intro h
      obtain ⟨k, hk, h⟩ := bind_eq_ok.mp h
      obtain ⟨v, hv, h⟩ := bind_eq_ok.mp h
      obtain ⟨bindings, hmap, rfl⟩ := ih.mp h
      refine ⟨(k, v) :: bindings, ?_, by simp⟩
      rw [List.map_cons, hmap, bindingBytes, parseText_eq_ok.mp hk, parseText_eq_ok.mp hv]
    · rintro ⟨_ | ⟨⟨k, v⟩, bindings⟩, hmap, rfl⟩
      · cases hmap
      · obtain ⟨hkv, hrest⟩ := List.cons.inj hmap
        obtain ⟨rfl, rfl⟩ := Prod.mk.inj hkv
        rw [parseText_eq_ok.mpr rfl, parseText_eq_ok.mpr rfl]
        exact ih.mpr ⟨bindings, hrest, by simp⟩

theorem lookup_map_bindingBytes (key : Text) : ∀ bindings : List (Text × Text),
    (bindings.map bindingBytes).lookup key.bytes = (bindings.lookup key).map Text.bytes
  | [] => rfl
  | (k, v) :: bindings => by
    by_cases h : key = k
    · subst h
      simp [bindingBytes, List.lookup]
    have hb : key.bytes ≠ k.bytes := fun e => h (Text.ext e)
    have h1 : (key.bytes == k.bytes) = false := by simpa using hb
    have h2 : (key == k) = false := by simpa using h
    rw [List.map_cons, bindingBytes, List.lookup, List.lookup, h1, h2]
    exact lookup_map_bindingBytes key bindings

theorem lookup_reverse_binding {bindings : List (Text × Text)}
    (h : bindings.map bindingBytes = params) (key : Text) :
    (bindings.reverse.lookup key).map Text.bytes = lastValue key.bytes params := by
  subst h
  rw [lastValue, ← List.map_reverse, lookup_map_bindingBytes]

/-- Parameters that are text are the bytes of bindings. -/
theorem exists_bindings (h : ∀ p ∈ params, utf8Valid p.1 ∧ utf8Valid p.2) :
    ∃ bindings : List (Text × Text), bindings.map bindingBytes = params := by
  induction params with
  | nil => exact ⟨[], rfl⟩
  | cons p params ih =>
    obtain ⟨hp, hrest⟩ := List.forall_mem_cons.mp h
    obtain ⟨bindings, rfl⟩ := ih hrest
    exact ⟨(⟨p.1, hp.1⟩, ⟨p.2, hp.2⟩) :: bindings, rfl⟩

/-- **What the parser accepts, on the parameters of the packet.** -/
theorem parseStartupRoute_eq_ok {route : StartupRoute} :
    parseStartupRoute bytes = .ok route ↔
      startupHeaderLen ≤ bytes.length ∧ fromBigEndian (bytes.take 4) = bytes.length ∧
      (∀ p ∈ (parameters bytes).1, utf8Valid p.1 ∧ utf8Valid p.2) ∧
      lastValue userKey.bytes (parameters bytes).1 = some route.user.bytes ∧
      (lastValue databaseKey.bytes (parameters bytes).1).filter (fun v => !v.isEmpty)
        = route.database.map Text.bytes := by
  have hfilter : ∀ o : Option Text, (o.filter fun v => !v.bytes.isEmpty).map Text.bytes
      = (o.map Text.bytes).filter fun v => !v.isEmpty := by
    intro o
    cases o <;> simp [Option.filter]
    split <;> rfl
  constructor
  · intro h
    unfold parseStartupRoute at h
    split at h
    · cases h
    rename_i hlen
    simp only at h
    split at h
    · cases h
    rename_i hdecl
    obtain ⟨fields, hfields, h⟩ := bind_eq_ok.mp h
    obtain ⟨bindings, hmap, rfl⟩ := parseFields_eq_ok.mp hfields
    rw [List.append_nil] at h
    split at h
    · cases h
    rename_i user huser
    obtain rfl := Except.ok.inj h
    have hmap' : bindings.map bindingBytes = (parameters bytes).1 := hmap
    rw [not_or, not_not, Nat.not_lt] at hdecl
    refine ⟨Nat.not_lt.mp hlen, hdecl.1, ?_, ?_, ?_⟩
    · intro p hp
      rw [← hmap'] at hp
      obtain ⟨binding, -, rfl⟩ := List.mem_map.mp hp
      exact ⟨binding.1.valid, binding.2.valid⟩
    · rw [← lookup_reverse_binding hmap', huser]
      rfl
    · rw [← lookup_reverse_binding hmap', hfilter]
  · rintro ⟨hlen, hdecl, hvalid, huser, hdb⟩
    obtain ⟨bindings, hmap⟩ := exists_bindings hvalid
    rw [← lookup_reverse_binding hmap] at huser hdb
    obtain ⟨user, hlook, hbytes⟩ := Option.map_eq_some_iff.mp huser
    obtain rfl : user = route.user := Text.ext hbytes
    have hroute : (bindings.reverse.lookup databaseKey).filter (fun v => !v.bytes.isEmpty)
        = route.database := by
      refine Option.map_injective (fun s t => Text.ext) ?_
      rw [hfilter, hdb]
    have hfields : parseFields ((bytes.drop startupHeaderLen).splitOn 0) []
        = .ok bindings.reverse :=
      parseFields_eq_ok.mpr ⟨bindings, hmap, by simp⟩
    rw [parseStartupRoute, if_neg (Nat.not_lt.mpr hlen)]
    simp only [hdecl]
    rw [if_neg (by simp [hlen]), hfields, ok_bind, hlook, hroute]

/-! ## The rewriter, read off the parameters -/

theorem findNul_eq_ok {before suffix : Bytes} {stop : ℕ}
    (h : findNul (before ++ suffix) before.length = .ok stop) :
    ∃ part rest, suffix = part ++ 0 :: rest ∧ 0 ∉ part ∧ stop = before.length + part.length := by
  rw [findNul, if_pos (by simp), List.drop_left] at h
  split at h
  swap
  · cases h
  rename_i i hi
  obtain ⟨hlt, hnul, hfirst⟩ := List.findIdx?_eq_some_iff_getElem.mp hi
  refine ⟨suffix.take i, suffix.drop (i + 1), ?_, ?_, ?_⟩
  · have hget : suffix[i] = 0 := by simpa using hnul
    rw [← hget, ← List.drop_eq_getElem_cons hlt, List.take_append_drop]
  · intro hmem
    obtain ⟨j, hj, hval⟩ := List.getElem_of_mem hmem
    rw [List.length_take] at hj
    rw [List.getElem_take] at hval
    exact hfirst j (by omega) (by simp [hval])
  · rw [List.length_take, Nat.min_eq_left (Nat.le_of_lt hlt)]
    exact (Except.ok.inj h).symm

/-- Parameters the rewriter passes over: none of them is `database`. -/
def PassedOver (params : List (Bytes × Bytes)) : Prop :=
  ∀ p ∈ params, IsParameter p ∧ p.1 ≠ databaseKey.bytes

theorem PassedOver.cons {p : Bytes × Bytes} (hp : IsParameter p) (hne : p.1 ≠ databaseKey.bytes)
    (h : PassedOver params) : PassedOver (p :: params) :=
  List.forall_mem_cons.mpr ⟨⟨hp, hne⟩, h⟩

variable {database : Text}

/-- **How the rewriter's scan ends.**  Either it meets the first `database` and swaps its value, or
it passes over every parameter down to an empty key or the end of the packet. -/
theorem replaceDatabase_eq_ok : ∀ (passes : ℕ) {before suffix : Bytes}
    {result : Option Bytes}, suffix.length ≤ passes → (suffix ≠ [] → suffix.getLast? = some 0) →
    replaceDatabase (before ++ suffix) database passes before.length = .ok result →
    (∃ params value rest packet, PassedOver params ∧ 0 ∉ value ∧
        suffix = params.flatMap encodeParameter
          ++ (encodeParameter (databaseKey.bytes, value) ++ rest) ∧
        setPacketLength (before ++ (params.flatMap encodeParameter
          ++ (encodeParameter (databaseKey.bytes, database.bytes) ++ rest))) = .ok packet ∧
        result = some packet) ∨
      (∃ params rest, PassedOver params ∧ suffix = params.flatMap encodeParameter ++ rest ∧
        (rest = [] ∨ ∃ trailing, rest = 0 :: trailing) ∧ result = none)
  | 0, before, suffix, result, hlen, _, h => by
    obtain rfl : suffix = [] := List.length_eq_zero_iff.mp (Nat.le_zero.mp hlen)
    exact Or.inr ⟨[], [], nofun, rfl, Or.inl rfl, (Except.ok.inj h).symm⟩
  | passes + 1, before, suffix, result, hlen, hlast, hrun => by
    rw [replaceDatabase] at hrun
    split at hrun
    swap
    next hdone =>
      refine Or.inr ⟨[], suffix, nofun, rfl, ?_, (Except.ok.inj hrun).symm⟩
      rcases suffix with _ | ⟨b, _ | ⟨c, suffix⟩⟩
      · exact Or.inl rfl
      · exact Or.inr ⟨[], by simpa using hlast (by simp)⟩
      · simp only [List.length_append, List.length_cons] at hdone
        omega
    obtain ⟨keyEnd, hkey, hpass⟩ := bind_eq_ok.mp hrun
    obtain ⟨key, afterKey, rfl, hkeyNul, rfl⟩ := findNul_eq_ok hkey
    split at hpass
    next hempty =>
      obtain rfl : key = [] := List.length_eq_zero_iff.mp (by omega)
      exact Or.inr ⟨[], _, nofun, rfl, Or.inr ⟨afterKey, rfl⟩, (Except.ok.inj hpass).symm⟩
    rename_i hne
    have hkeyNe : key ≠ [] := fun e => hne (by simp [e])
    obtain ⟨valueEnd, hvalue, hswap⟩ := bind_eq_ok.mp hpass
    have hafter : before ++ (key ++ 0 :: afterKey) = (before ++ (key ++ [0])) ++ afterKey := by
      simp
    have hpos : before.length + key.length + 1 = (before ++ (key ++ [0])).length := by
      simp [Nat.add_assoc]
    rw [hafter, hpos] at hvalue hswap
    obtain ⟨value, rest, rfl, hvalueNul, rfl⟩ := findNul_eq_ok hvalue
    have hslice : (((before ++ (key ++ [0])) ++ (value ++ 0 :: rest)).take
        (before.length + key.length)).drop before.length = key := by
      rw [← hafter, List.take_length_add_append, List.drop_left, List.take_left]
    rw [hslice, List.drop_length_add_append, List.drop_left, List.take_left] at hswap
    split at hswap
    next hdb =>
      obtain ⟨packet, hset, hok⟩ := bind_eq_ok.mp hswap
      refine Or.inl ⟨[], value, rest, packet, nofun, hvalueNul, ?_, ?_, (Except.ok.inj hok).symm⟩
      · simp [encodeParameter, databaseKey, hdb]
      · rw [← hset]
        simp [encodeParameter, databaseKey, hdb]
    rename_i hother
    have hparam : IsParameter (key, value) := ⟨hkeyNe, hkeyNul, hvalueNul⟩
    have hencoded : key ++ 0 :: (value ++ 0 :: rest) = encodeParameter (key, value) ++ rest := by
      simp [encodeParameter]
    have hoffset : (before ++ (key ++ [0])).length + value.length + 1
        = (before ++ encodeParameter (key, value)).length := by
      simp [encodeParameter]
      omega
    rw [← hafter, hencoded, ← List.append_assoc, hoffset] at hswap
    have hrestLast : rest ≠ [] → rest.getLast? = some 0 := by
      intro hrest
      have hzero := hlast (by simp)
      rwa [hencoded, List.getLast?_append_of_ne_nil _ hrest] at hzero
    have hrestLen : rest.length ≤ passes := by
      simp only [List.length_append, List.length_cons] at hlen
      omega
    rcases replaceDatabase_eq_ok passes hrestLen hrestLast hswap with
      ⟨params, v, r, packet, hover, hv, rfl, hset, hres⟩ | ⟨params, r, hover, rfl, hend, hres⟩
    · refine Or.inl ⟨(key, value) :: params, v, r, packet,
        hover.cons hparam hother, hv, ?_, ?_, hres⟩
      · simp [encodeParameter]
      · rw [← hset]
        simp
    · exact Or.inr ⟨(key, value) :: params, r, hover.cons hparam hother,
        by simp [encodeParameter], hend, hres⟩

/-! ## The length field -/

variable {packet result : Bytes}

theorem setPacketLength_eq_ok (hlen : startupHeaderLen ≤ packet.length)
    (h : setPacketLength packet = .ok result) :
    startupHeaderLen ≤ result.length ∧ fromBigEndian (result.take 4) = result.length ∧
      result.drop startupHeaderLen = packet.drop startupHeaderLen := by
  unfold setPacketLength at h
  split at h
  next hlt =>
    obtain rfl := Except.ok.inj h
    have hfour := length_bigEndian 4 packet.length
    unfold startupHeaderLen at hlen ⊢
    have hsame : (bigEndian 4 packet.length ++ packet.drop 4).length = packet.length := by
      rw [List.length_append, List.length_drop, hfour]
      omega
    refine ⟨by omega, ?_, ?_⟩
    · rw [hsame, List.take_left' hfour, fromBigEndian_bigEndian]
      exact Nat.mod_eq_of_lt hlt
    · rw [show 8 = (bigEndian 4 packet.length).length + 4 from rfl, List.drop_length_add_append,
        List.drop_drop]
      rfl
  next => cases h

/-! ## When the rewritten packet routes as the original one -/

/-- The values of the `database` parameters, in packet order. -/
def databaseValues (params : List (Bytes × Bytes)) : List Bytes :=
  (params.filter fun p => p.1 == databaseKey.bytes).map Prod.snd

theorem lookup_eq_head? (key : Bytes) : ∀ params : List (Bytes × Bytes),
    params.lookup key = ((params.filter fun p => p.1 == key).map Prod.snd).head?
  | [] => rfl
  | (k, v) :: params => by
    by_cases h : key = k
    · subst h
      simp [List.lookup]
    · have h1 : (key == k) = false := by simpa using h
      have h2 : (k == key) = false := by simpa using fun e : k = key => h e.symm
      rw [List.lookup, h1, List.filter_cons, h2]
      exact lookup_eq_head? key params

theorem lastValue_databaseKey (params : List (Bytes × Bytes)) :
    lastValue databaseKey.bytes params = (databaseValues params).getLast? := by
  rw [lastValue, lookup_eq_head?, List.filter_reverse, List.map_reverse, List.head?_reverse]
  rfl

/-- The packets the rewriter gets right.  With one `database` parameter its value is swapped; with
several, the last one has to name the target already; with none, the byte after the last parameter
has to be the final terminator, so that the splice starts a parameter. -/
def keepsRoute (packet : Bytes) (database : Text) : Bool :=
  match databaseValues (parameters packet).1 with
  | [] => (parameters packet).2 == [[], []]
  | [_] => true
  | _ :: later => later.getLast? == some database.bytes

theorem databaseValues_of_passedOver (h : PassedOver params) (others : List (Bytes × Bytes)) :
    databaseValues (params ++ others) = databaseValues others := by
  have hnone : (params.filter fun p => p.1 == databaseKey.bytes) = [] :=
    List.filter_eq_nil_iff.mpr fun p hp => by simpa using (h p hp).2
  rw [databaseValues, List.filter_append, hnone]
  rfl

/-- A `database` parameter does not change the user that is read. -/
theorem lastValue_userKey_database (params others : List (Bytes × Bytes)) (v : Bytes) :
    lastValue userKey.bytes (params ++ (databaseKey.bytes, v) :: others)
      = lastValue userKey.bytes (params ++ others) := by
  have hne : (databaseKey.bytes == userKey.bytes) = false := by decide
  simp only [lastValue, lookup_eq_head?, List.filter_reverse, List.filter_append,
    List.filter_cons, hne, Bool.false_eq_true, if_false]

variable {user : Text}

/-- The parser on a rewritten packet: only the parameters and the effective database matter. -/
theorem parseStartupRoute_setPacketLength (hdb : database.bytes ≠ [])
    (hlen : startupHeaderLen ≤ packet.length) (hset : setPacketLength packet = .ok result)
    (hparams : (parameters packet).1 = params) :
    parseStartupRoute result = .ok ⟨user, some database⟩ ↔
      (∀ p ∈ params, utf8Valid p.1 ∧ utf8Valid p.2) ∧
      lastValue userKey.bytes params = some user.bytes ∧
      (databaseValues params).getLast? = some database.bytes := by
  obtain ⟨hres, hdecl, hbody⟩ := setPacketLength_eq_ok hlen hset
  have hpar : (parameters result).1 = params := by
    rw [← hparams, parameters, hbody, parameters]
  have hsome : ∀ o : Option Bytes, o.filter (fun v => !v.isEmpty) = some database.bytes ↔
      o = some database.bytes := by
    intro o
    cases o with
    | none => simp
    | some v =>
      rw [Option.filter_some, Option.some_inj]
      constructor
      · intro h
        split at h
        · exact Option.some.inj h
        · cases h
      · rintro rfl
        rw [if_pos (by simpa using hdb)]
  rw [parseStartupRoute_eq_ok, hpar, Option.map_some, hsome, lastValue_databaseKey]
  exact ⟨fun h => h.2.2, fun h => ⟨hres, hdecl, h⟩⟩

variable {value : Bytes}

theorem isParameter_database (h : 0 ∉ value) : IsParameter (databaseKey.bytes, value) :=
  ⟨show databaseKey.bytes ≠ [] by decide, show 0 ∉ databaseKey.bytes by decide, h⟩

/-- The parameters of a packet whose `database` stands in plain sight. -/
theorem pairs_around_database (hover : PassedOver params) (hvalue : 0 ∉ value) (rest : Bytes) :
    pairs ((params.flatMap encodeParameter
        ++ (encodeParameter (databaseKey.bytes, value) ++ rest)).splitOn 0)
      = (params ++ (databaseKey.bytes, value) :: (pairs (rest.splitOn 0)).1,
          (pairs (rest.splitOn 0)).2) := by
  have hall : ∀ p ∈ params ++ [(databaseKey.bytes, value)], IsParameter p :=
    List.forall_mem_append.mpr
      ⟨fun p hp => (hover p hp).1, List.forall_mem_singleton.mpr (isParameter_database hvalue)⟩
  have h := pairs_encode hall rest
  rwa [List.flatMap_append, List.flatMap_singleton, List.append_assoc, List.append_assoc,
    List.singleton_append] at h

/-- The swap is right when the swapped `database` is the only one, or the last one agrees. -/
theorem route_iff_of_swap {others : List (Bytes × Bytes)} (hover : PassedOver params)
    (hvalid : ∀ p ∈ params ++ (databaseKey.bytes, value) :: others, utf8Valid p.1 ∧ utf8Valid p.2)
    (huser : lastValue userKey.bytes (params ++ (databaseKey.bytes, value) :: others)
      = some user.bytes)
    (hparams : (parameters packet).1 = params ++ (databaseKey.bytes, value) :: others)
    (hresult : parseStartupRoute result = .ok ⟨user, some database⟩ ↔
      (∀ p ∈ params ++ (databaseKey.bytes, database.bytes) :: others,
        utf8Valid p.1 ∧ utf8Valid p.2) ∧
      lastValue userKey.bytes (params ++ (databaseKey.bytes, database.bytes) :: others)
        = some user.bytes ∧
      (databaseValues (params ++ (databaseKey.bytes, database.bytes) :: others)).getLast?
        = some database.bytes) :
    parseStartupRoute result = .ok ⟨user, some database⟩ ↔
      keepsRoute packet database = true := by
  have hvalid' : ∀ p ∈ params ++ (databaseKey.bytes, database.bytes) :: others,
      utf8Valid p.1 ∧ utf8Valid p.2 := by
    simp only [List.forall_mem_append, List.forall_mem_cons] at hvalid ⊢
    exact ⟨hvalid.1, ⟨databaseKey.valid, database.valid⟩, hvalid.2.2⟩
  have hvalues : ∀ v, databaseValues (params ++ (databaseKey.bytes, v) :: others)
      = v :: databaseValues others := by
    intro v
    rw [databaseValues_of_passedOver hover]
    simp [databaseValues]
  rw [lastValue_userKey_database] at huser
  rw [hresult, lastValue_userKey_database, hvalues, and_iff_right hvalid', and_iff_right huser,
    keepsRoute, hparams, hvalues]
  cases databaseValues others with
  | nil => simp
  | cons v later => simp

/-- What the fall-through splices in: a `database` parameter before the last byte. -/
theorem splice_eq (before suffix : Bytes) (database : Text) (hne : suffix ≠ []) :
    (before ++ suffix).take ((before ++ suffix).length - 1) ++ ascii "database" ++ [0]
        ++ database.bytes ++ [0, 0]
      = before ++ (suffix.dropLast
          ++ (encodeParameter (databaseKey.bytes, database.bytes) ++ [0])) := by
  rw [← List.dropLast_eq_take, List.dropLast_append_of_ne_nil hne]
  simp [encodeParameter, databaseKey]

/-- A packet that ends inside its parameters: the splice runs into the last value, and what follows
is read as a key that is the target's name. -/
theorem not_route_of_open_end
    (hover : PassedOver params) (hne : params ≠ []) (hdb : database.bytes ≠ [])
    (hnul : 0 ∉ database.bytes) :
    (databaseValues (pairs (((params.flatMap encodeParameter).dropLast
      ++ (encodeParameter (databaseKey.bytes, database.bytes) ++ [0])).splitOn 0)).1).getLast?
        ≠ some database.bytes := by
  obtain ⟨init, ⟨key, value⟩, rfl⟩ : ∃ init last, params = init ++ [last] :=
    ⟨params.dropLast, params.getLast hne, (List.dropLast_append_getLast hne).symm⟩
  obtain ⟨hinit, hlast⟩ := List.forall_mem_append.mp hover
  obtain ⟨hparam, hother⟩ := List.forall_mem_singleton.mp hlast
  have hkey : 0 ∉ databaseKey.bytes := by decide
  have hglued : PassedOver (init ++ [(key, value ++ databaseKey.bytes)]) :=
    List.forall_mem_append.mpr ⟨hinit, List.forall_mem_singleton.mpr ⟨⟨hparam.key_ne_nil,
      hparam.key_nul, fun h => (List.mem_append.mp h).elim hparam.value_nul hkey⟩, hother⟩⟩
  have hbytes : ((init ++ [(key, value)]).flatMap encodeParameter).dropLast
        ++ (encodeParameter (databaseKey.bytes, database.bytes) ++ [0])
      = (init ++ [(key, value ++ databaseKey.bytes)]).flatMap encodeParameter
        ++ (encodeParameter (database.bytes, []) ++ []) := by
    have hdrop : ((init ++ [(key, value)]).flatMap encodeParameter)
        = (init.flatMap encodeParameter ++ (key ++ 0 :: value)) ++ [0] := by
      simp [encodeParameter]
    rw [hdrop, List.dropLast_concat]
    simp [encodeParameter]
  have htail : pairs ((encodeParameter (database.bytes, []) ++ []).splitOn 0)
      = ([(database.bytes, [])], [[]]) := by
    have h := @pairs_encode [(database.bytes, [])]
      (by simpa using ⟨hdb, hnul, List.not_mem_nil⟩) []
    simpa [pairs] using h
  rw [hbytes, pairs_encode (fun p hp => (hglued p hp).1), htail,
    databaseValues_of_passedOver hglued]
  intro h
  have hmem := List.mem_of_getLast? h
  obtain ⟨p, hp, hval⟩ := List.mem_map.mp hmem
  obtain rfl := List.mem_singleton.mp (List.mem_of_mem_filter hp)
  exact hdb hval.symm

/-- An empty key ends the parameters. -/
theorem pairs_nul (rest : Bytes) : pairs ((0 :: rest).splitOn 0) = ([], [] :: rest.splitOn 0) := by
  have hsplit : (0 :: rest).splitOn 0 = [] :: rest.splitOn 0 :=
    splitOn_nul_cons List.not_mem_nil rest
  rw [hsplit]
  cases h : rest.splitOn 0 with
  | nil => exact absurd h (List.splitOn_ne_nil 0 rest)
  | cons part parts => rfl

/-- The splice is right when the last byte is the terminator right after the parameters. -/
theorem route_iff_of_splice {header rest : Bytes} (hheader : header.length = startupHeaderLen)
    (hover : PassedOver params) (hvalid : ∀ p ∈ params, utf8Valid p.1 ∧ utf8Valid p.2)
    (huser : lastValue userKey.bytes params = some user.bytes) (hne : database.bytes ≠ [])
    (hnul : 0 ∉ database.bytes) (hend : rest = [] ∨ ∃ trailing, rest = 0 :: trailing)
    (hset : setPacketLength (header ++ ((params.flatMap encodeParameter ++ rest).dropLast
      ++ (encodeParameter (databaseKey.bytes, database.bytes) ++ [0]))) = .ok result) :
    parseStartupRoute result = .ok ⟨user, some database⟩ ↔
      keepsRoute (header ++ (params.flatMap encodeParameter ++ rest)) database = true := by
  have hbody : ∀ r : Bytes, parameters (header ++ r) = pairs (r.splitOn 0) := fun r => by
    rw [parameters, ← hheader, List.drop_left]
  have hall : ∀ p ∈ params, IsParameter p := fun p hp => (hover p hp).1
  have hnone : databaseValues params = [] := by
    rw [← List.append_nil params, databaseValues_of_passedOver hover]
    rfl
  have hlong : startupHeaderLen ≤ (header ++ ((params.flatMap encodeParameter ++ rest).dropLast
      ++ (encodeParameter (databaseKey.bytes, database.bytes) ++ [0]))).length := by
    rw [List.length_append, hheader]
    exact Nat.le_add_right _ _
  rw [parseStartupRoute_setPacketLength hne hlong hset rfl, hbody, keepsRoute, hbody,
    pairs_encode hall]
  rcases hend with rfl | ⟨trailing, rfl⟩
  · have hparams : params ≠ [] := by
      rintro rfl
      cases huser
    have hopen := not_route_of_open_end hover hparams hne hnul
    rw [← List.append_nil (params.flatMap encodeParameter)] at hopen
    refine iff_of_false (fun h => hopen h.2.2) ?_
    simp [pairs, hnone]
  · rw [pairs_nul, List.append_nil, hnone]
    cases trailing with
    | nil =>
      rw [List.dropLast_concat, pairs_around_database hover hnul, pairs_nul,
        lastValue_userKey_database, databaseValues_of_passedOver hover, List.append_nil]
      refine iff_of_true ⟨?_, huser, ?_⟩ rfl
      · rw [List.forall_mem_append, List.forall_mem_singleton]
        exact ⟨hvalid, databaseKey.valid, database.valid⟩
      · simp [databaseValues]
    | cons b trailing =>
      have hdrop : (params.flatMap encodeParameter ++ 0 :: b :: trailing).dropLast
          = params.flatMap encodeParameter ++ 0 :: (b :: trailing).dropLast := by
        rw [List.dropLast_append_of_ne_nil (by simp)]
        rfl
      rw [hdrop, List.append_assoc, List.cons_append, pairs_encode hall, pairs_nul,
        List.append_nil, hnone]
      have hsplit : (b :: trailing).splitOn 0 ≠ [[]] := by
        intro h
        have hjoin := @List.intercalate_splitOn _ (b :: trailing) _ _ 0
        rw [h] at hjoin
        cases hjoin
      simp [hsplit]

/-- **Rewriting keeps the route exactly on `keepsRoute`.**  Whenever the gateway has routed a
packet and the rewriter returns one for the backend, the backend reads the routed user and exactly
the database asked for, if and only if the packet names at most one `database` (or ends its
`database` parameters on the target already) and, naming none, ends on its own terminator. -/
theorem startupPacketWithDatabase_route_iff {rewritten : Bytes} {route : StartupRoute}
    {database : Text} (hroute : parseStartupRoute packet = .ok route)
    (hrewrite : startupPacketWithDatabase packet database = .ok rewritten) :
    parseStartupRoute rewritten = .ok ⟨route.user, some database⟩ ↔
      keepsRoute packet database = true := by
  obtain ⟨hlen, -, hvalid, huser, -⟩ := parseStartupRoute_eq_ok.mp hroute
  rw [startupPacketWithDatabase, hroute, ok_bind] at hrewrite
  split at hrewrite
  · cases hrewrite
  rename_i hcheck
  simp only [Bool.or_eq_true, not_or, List.isEmpty_iff, List.contains_iff_mem, bne_iff_ne,
    ne_eq, not_not] at hcheck
  obtain ⟨⟨hne, hnul⟩, hlast⟩ := hcheck
  obtain ⟨result, hscan, hrewrite⟩ := bind_eq_ok.mp hrewrite
  obtain ⟨header, body, rfl, hheader⟩ : ∃ header body, packet = header ++ body ∧
      header.length = startupHeaderLen :=
    ⟨_, _, (List.take_append_drop startupHeaderLen packet).symm, List.length_take_of_le hlen⟩
  have hbody : ∀ rest : Bytes, (header ++ rest).drop startupHeaderLen = rest := fun rest => by
    rw [← hheader, List.drop_left]
  have hlong : ∀ rest : Bytes, startupHeaderLen ≤ (header ++ rest).length := fun rest => by
    rw [List.length_append, hheader]
    exact Nat.le_add_right _ _
  have hbodyLast : body ≠ [] → body.getLast? = some 0 := fun h => by
    rwa [List.getLast?_append_of_ne_nil _ h] at hlast
  rw [← hheader] at hscan
  rcases replaceDatabase_eq_ok _ (by simp) hbodyLast hscan with
    ⟨params, value, rest, p, hover, hvalue, rfl, hset, rfl⟩ | ⟨params, rest, hover, rfl, hend, rfl⟩
  · obtain rfl := Except.ok.inj hrewrite
    have hparams : ∀ v : Bytes, 0 ∉ v → (parameters (header ++ (params.flatMap encodeParameter
        ++ (encodeParameter (databaseKey.bytes, v) ++ rest)))).1
          = params ++ (databaseKey.bytes, v) :: (pairs (rest.splitOn 0)).1 := fun v hv => by
      rw [parameters, hbody, pairs_around_database hover hv]
    rw [hparams value hvalue] at hvalid huser
    exact route_iff_of_swap hover hvalid huser (hparams value hvalue)
      (parseStartupRoute_setPacketLength hne (hlong _) hset (hparams database.bytes hnul))
  · have hend' : (pairs (rest.splitOn 0)).1 = [] := by
      rcases hend with rfl | ⟨trailing, rfl⟩
      · rfl
      · rw [pairs_nul]
    rw [parameters, hbody, pairs_encode (fun p hp => (hover p hp).1), hend',
      List.append_nil] at hvalid huser
    have hsuffix : params.flatMap encodeParameter ++ rest ≠ [] := by
      rcases params with _ | ⟨p, params⟩
      · cases huser
      · simp [encodeParameter]
    have hset : setPacketLength (header ++ ((params.flatMap encodeParameter ++ rest).dropLast
        ++ (encodeParameter (databaseKey.bytes, database.bytes) ++ [0]))) = .ok rewritten := by
      rw [← splice_eq header _ database hsuffix]
      exact hrewrite
    exact route_iff_of_splice hheader hover hvalid huser hne hnul hend hset

/-- The packet `user=a`, `database=x`, `database=y`, as a client may send it. -/
def repeatedDatabase : Bytes :=
  [0, 0, 0, 0x26, 0, 3, 0, 0] ++ ascii "user" ++ [0] ++ ascii "a" ++ [0] ++ ascii "database" ++ [0]
    ++ ascii "x" ++ [0] ++ ascii "database" ++ [0] ++ ascii "y" ++ [0, 0]

/-- With `database` twice the target `t` goes into the first one, and the backend reads `y`. -/
theorem repeatedDatabase_routes_elsewhere :
    ∃ rewritten, parseStartupRoute repeatedDatabase = .ok ⟨⟨ascii "a", by decide⟩,
        some ⟨ascii "y", by decide⟩⟩ ∧
      startupPacketWithDatabase repeatedDatabase ⟨ascii "t", by decide⟩ = .ok rewritten ∧
      parseStartupRoute rewritten = .ok ⟨⟨ascii "a", by decide⟩, some ⟨ascii "y", by decide⟩⟩ :=
  ⟨repeatedDatabase.take 24 ++ ascii "t" ++ repeatedDatabase.drop 25,
    by decide +kernel, by decide +kernel, by decide +kernel⟩

/-- The packet `user=a` with its terminator. -/
def userOnly : Bytes :=
  [0, 0, 0, 0x10, 0, 3, 0, 0] ++ ascii "user" ++ [0] ++ ascii "a" ++ [0, 0]

theorem userOnly_routes_to_target :
    ∃ rewritten, startupPacketWithDatabase userOnly ⟨ascii "t", by decide⟩ = .ok rewritten ∧
      parseStartupRoute rewritten = .ok ⟨⟨ascii "a", by decide⟩, some ⟨ascii "t", by decide⟩⟩ := by
  have hroute : parseStartupRoute userOnly = .ok ⟨⟨ascii "a", by decide⟩, none⟩ := by
    decide +kernel
  have hrewrite : startupPacketWithDatabase userOnly ⟨ascii "t", by decide⟩
      = .ok ([0, 0, 0, 0x1b, 0, 3, 0, 0] ++ (userOnly.drop 8).dropLast
        ++ encodeParameter (ascii "database", ascii "t") ++ [0]) := by
    decide +kernel
  exact ⟨_, hrewrite, (startupPacketWithDatabase_route_iff hroute hrewrite).mpr (by decide +kernel)⟩

end DatabasesEverywhere.PostgresStartup
