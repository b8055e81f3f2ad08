import DatabasesEverywhere.Foundations.Lists
import DatabasesEverywhere.Gateway.RespFrame

/-!
# Gateway/RedisLogin — the login of a RESP client and its rewriting

    AUTH password                                        ──▸  AUTH username password
    AUTH default password                                ──▸  AUTH username password
    HELLO version … AUTH default password [SETNAME name] ──▸  HELLO version … AUTH username password …

The gateway reads the route off the first frame, resolves the tenant's user and puts its name into
the frame.  `HELLO` may repeat `AUTH`, and a value may itself spell `AUTH`, so the place of the
username is found by walking over the options.  The walk does not look at the username
(`helloOptions_set`), hence it finds the same place again (`login_rewrite_faithful`).
-/

open Foundations

namespace DatabasesEverywhere.Gateway

structure RedisRoute where
  username : Option Text
  password : Bytes
  deriving DecidableEq

/-! ## The route of a frame -/

def redisString (bytes : Bytes) : Except RedisParseError Text :=
  (Text.fromUtf8 bytes).elim (.error .invalidUtf8) .ok

@[simp] theorem redisString_eq_ok {bytes : Bytes} {text : Text} :
    redisString bytes = .ok text ↔ text.bytes = bytes := by
  rw [← Text.fromUtf8_eq_some, redisString]
  cases Text.fromUtf8 bytes <;> simp

def parseAuth : List Bytes → Except RedisParseError RedisRoute
  | [_, password] => .ok { username := none, password }
  | [_, username, password] => do
    let username ← redisString username
    .ok { username := some username, password }
  | _ => .error .unsupported

/-- The loop of `hello_auth_index` over what is left of the options, with the place of the last
`AUTH` so far. -/
def helloOptions : ℕ → Option ℕ → List Bytes → Except RedisParseError (Option ℕ)
  | _, auth, [] => .ok auth
  | index, auth, option :: options =>
    if eqIgnoreAsciiCase option (ascii "AUTH") then
      match options with
      | _ :: _ :: options => helloOptions (index + 3) (some index) options
      | _ => .error .missingUsername
    else if eqIgnoreAsciiCase option (ascii "SETNAME") then
      match options with
      | _ :: options => helloOptions (index + 2) auth options
      | [] => .error .unsupported
    else .error .unsupported

def helloAuthIndex : List Bytes → Except RedisParseError ℕ
  | _ :: version :: options =>
    if version ≠ ascii "2" ∧ version ≠ ascii "3" then .error .unsupported
    else do
      let auth ← helloOptions 2 none options
      auth.elim (.error .missingUsername) .ok
  | _ => .error .missingUsername

/-- `hello_auth_index` returns a place with two arguments behind it, so neither access is out of
range (`helloAuthIndex_eq_ok`). -/
def parseHello (args : List Bytes) : Except RedisParseError RedisRoute := do
  let auth ← helloAuthIndex args
  let username ← redisString (args.getD (auth + 1) [])
  .ok { username := some username, password := args.getD (auth + 2) [] }

def routeFromArgs (args : List Bytes) : Except RedisParseError RedisRoute :=
  match args with
  | [] => .error .empty
  | command :: _ =>
    if eqIgnoreAsciiCase command (ascii "AUTH") then parseAuth args
    else if eqIgnoreAsciiCase command (ascii "HELLO") then parseHello args
    else .error .unsupported

def parseInitialFrameRoute (bytes : Bytes) : Except RedisParseError (Option (RedisRoute × ℕ)) :=
  match parseRespArray bytes with
  | .ok (args, consumed) => do
    let route ← routeFromArgs args
    .ok (some (route, consumed))
  | .error .incomplete => .ok none
  | .error error => .error error

/-! ## The rewriting -/

namespace RedisRoute

def hasExplicitUsername (route : RedisRoute) : Bool :=
  route.username.any fun username => !eqIgnoreAsciiCase username.bytes (ascii "default")

end RedisRoute

def resolvedUsernameIsInvalid (username : Text) : Bool :=
  username.bytes.isEmpty || username.bytes.contains Ascii.carriage ||
    username.bytes.contains Ascii.newline

/-- The arguments with the resolved username in its place. -/
def resolveArgs (username : Bytes) (args : List Bytes) : Except RedisParseError (List Bytes) :=
  match args with
  | [] => .error .unsupported
  | command :: _ =>
    if eqIgnoreAsciiCase command (ascii "AUTH") then
      match args with
      | [command, password] => .ok [command, username, password]
      | [command, _, password] => .ok [command, username, password]
      | _ => .error .unsupported
    else if eqIgnoreAsciiCase command (ascii "HELLO") then do
      let auth ← helloAuthIndex args
      .ok (args.set (auth + 1) username)
    else .error .unsupported

def RedisRoute.rewriteWithResolvedUsername (route : RedisRoute) (original : Bytes) (consumed : ℕ)
    (resolvedUsername : Text) : Except RedisParseError Bytes :=
  if route.hasExplicitUsername || resolvedUsernameIsInvalid resolvedUsername ||
      consumed > original.length then .error .unsupported
  else do
    let (args, parsed) ← parseRespArray (original.take consumed)
    if parsed ≠ consumed then .error .unsupported
    else do
      let args ← resolveArgs resolvedUsername.bytes args
      .ok (serializeRespArray args ++ original.drop consumed)

/-! ## The walk over the options -/

variable {option : Bytes}

theorem helloOptions_auth (hauth : eqIgnoreAsciiCase option (ascii "AUTH") = true)
    (index : ℕ) (auth : Option ℕ) (name password : Bytes) (options : List Bytes) :
    helloOptions index auth (option :: name :: password :: options) =
      helloOptions (index + 3) (some index) options := by
  rw [helloOptions, if_pos hauth]

theorem helloOptions_setname (hauth : ¬ eqIgnoreAsciiCase option (ascii "AUTH") = true)
    (hname : eqIgnoreAsciiCase option (ascii "SETNAME") = true)
    (index : ℕ) (auth : Option ℕ) (name : Bytes) (options : List Bytes) :
    helloOptions index auth (option :: name :: options) =
      helloOptions (index + 2) auth options := by
  cases options <;> simp [helloOptions, hauth, hname]

/-- **The place found does not depend on the username behind it.**  Either the options hold no
`AUTH`, or the last one is among them with two values behind it. -/
theorem helloOptions_set {index last : ℕ} {auth : Option ℕ} {options : List Bytes}
    (h : helloOptions index auth options = .ok (some last)) :
    auth = some last ∨ ∃ k, last = index + k ∧ k + 2 < options.length ∧
      ∀ username, helloOptions index auth (options.set (k + 1) username) = .ok (some last) := by
  fun_induction helloOptions index auth options with
  | case1 index auth => exact .inl (Except.ok.inj h)
  | case2 index auth option hauth name password options ih =>
    right
    rcases ih h with hhere | ⟨k, rfl, hk, hset⟩
    · obtain rfl := Option.some.inj hhere
      refine ⟨0, rfl, by simp, fun username => ?_⟩
      rw [List.set_cons_succ, List.set_cons_zero, helloOptions_auth hauth]
      exact h
    · refine ⟨k + 3, by omega, by simp only [List.length_cons]; omega, fun username => ?_⟩
      rw [List.set_cons_succ, List.set_cons_succ, List.set_cons_succ, helloOptions_auth hauth]
      exact hset username
  | case4 index auth option hauth hname name options ih =>
    refine (ih h).imp_right ?_
    rintro ⟨k, rfl, hk, hset⟩
    refine ⟨k + 2, by omega, by simp only [List.length_cons]; omega, fun username => ?_⟩
    rw [List.set_cons_succ, List.set_cons_succ, helloOptions_setname hauth hname]
    exact hset username
  | case3 => cases h
  | case5 => cases h
  | case6 => cases h

variable {args : List Bytes}

theorem helloAuthIndex_eq_ok {auth : ℕ} (h : helloAuthIndex args = .ok auth) :
    2 ≤ auth ∧ auth + 2 < args.length ∧
      ∀ username, helloAuthIndex (args.set (auth + 1) username) = .ok auth := by
  match args, h with
  | [], h => cases h
  | [_], h => cases h
  | command :: version :: options, h =>
    rw [helloAuthIndex] at h
    split at h
    · cases h
    next hversion =>
    obtain ⟨found, hoptions, h⟩ := bind_eq_ok.mp h
    cases found with
    | none => cases h
    | some found =>
      obtain rfl := Except.ok.inj h
      rcases helloOptions_set hoptions with hnone | ⟨k, rfl, hk, hset⟩
      · cases hnone
      · refine ⟨by omega, by simp only [List.length_cons]; omega, fun username => ?_⟩
        rw [show 2 + k + 1 = (k + 1) + 2 by omega, List.set_cons_succ, List.set_cons_succ,
          helloAuthIndex, if_neg hversion, hset, ok_bind]
        rfl

/-! ## The place of the username -/

/-- The arguments are rewritten next to the password, and the new ones name the resolved user. -/
structure Resolved (route : RedisRoute) (username : Text) (args resolved : List Bytes) : Prop where
  around : ∃ before after,
    args = before ++ (route.username.toList.map Text.bytes ++ route.password :: after) ∧
      resolved = before ++ username.bytes :: route.password :: after
  route : routeFromArgs resolved = .ok { username := some username, password := route.password }
  few : resolved.length ≤ max args.length 3

variable {command : Bytes} {others : List Bytes} {route : RedisRoute}

theorem parseAuth_resolved (hcommand : eqIgnoreAsciiCase command (ascii "AUTH") = true)
    (h : parseAuth (command :: others) = .ok route) (username : Text) :
    ∃ resolved, resolveArgs username.bytes (command :: others) = .ok resolved ∧
      Resolved route username (command :: others) resolved := by
  have hroute : ∀ password, routeFromArgs [command, username.bytes, password] =
      .ok { username := some username, password } := by
    intro password
    rw [routeFromArgs, if_pos hcommand, parseAuth, redisString_eq_ok.mpr rfl, ok_bind]
  match others, h with
  | [], h => cases h
  | [password], h =>
    obtain rfl := Except.ok.inj h
    exact ⟨[command, username.bytes, password], by rw [resolveArgs, if_pos hcommand],
      ⟨[command], [], rfl, rfl⟩, hroute password, by simp⟩
  | [name, password], h =>
    obtain ⟨text, htext, h⟩ := bind_eq_ok.mp h
    obtain rfl := Except.ok.inj h
    obtain rfl := redisString_eq_ok.mp htext
    exact ⟨[command, username.bytes, password], by rw [resolveArgs, if_pos hcommand],
      ⟨[command], [], rfl, rfl⟩, hroute password, by simp⟩
  | _ :: _ :: _ :: _, h => cases h

theorem parseHello_resolved (hauth : ¬ eqIgnoreAsciiCase command (ascii "AUTH") = true)
    (hcommand : eqIgnoreAsciiCase command (ascii "HELLO") = true)
    (h : parseHello (command :: others) = .ok route) (username : Text) :
    ∃ resolved, resolveArgs username.bytes (command :: others) = .ok resolved ∧
      Resolved route username (command :: others) resolved := by
  obtain ⟨auth, hindex, h⟩ := bind_eq_ok.mp h
  obtain ⟨name, hname, h⟩ := bind_eq_ok.mp h
  obtain rfl := Except.ok.inj h
  obtain ⟨hlow, hhigh, hset⟩ := helloAuthIndex_eq_ok hindex
  have hname := redisString_eq_ok.mp hname
  have hold : (command :: others)[auth + 1]? = some name.bytes := by
    rw [hname, List.getD_eq_getElem?_getD, List.getElem?_eq_getElem (by omega), Option.getD_some]
  have hpassword : (command :: others)[auth + 2]? =
      some ((command :: others).getD (auth + 2) []) := by
    rw [List.getD_eq_getElem?_getD, List.getElem?_eq_getElem hhigh, Option.getD_some]
  have hbehind : (command :: others).drop (auth + 2) =
      (command :: others).getD (auth + 2) [] :: (command :: others).drop (auth + 3) := by
    rw [List.drop_eq_getElem?_toList_append, hpassword]
    rfl
  refine ⟨(command :: others).set (auth + 1) username.bytes, ?_, ⟨(command :: others).take (auth + 1),
    (command :: others).drop (auth + 3), ?_, ?_⟩, ?_, by simp⟩
  · rw [resolveArgs, if_neg hauth, if_pos hcommand, hindex, ok_bind]
  · rw [Option.toList_some, List.map_singleton, List.singleton_append, ← hbehind]
    exact eq_take_cons_drop hold
  · rw [List.set_eq_take_append_cons_drop, if_pos (by omega), hbehind]
  have hindex' := hset username.bytes
  rw [List.set_cons_succ] at hindex' ⊢
  rw [routeFromArgs, if_neg hauth, if_pos hcommand, parseHello, hindex', ok_bind,
    ← List.set_cons_succ]
  have hnew : ((command :: others).set (auth + 1) username.bytes).getD (auth + 1) [] =
      username.bytes := by
    rw [List.getD_eq_getElem?_getD, List.getElem?_set_self (by omega), Option.getD_some]
  have hkept : ((command :: others).set (auth + 1) username.bytes).getD (auth + 2) [] =
      (command :: others).getD (auth + 2) [] := by
    rw [List.getD_eq_getElem?_getD, List.getElem?_set_ne (by omega), ← List.getD_eq_getElem?_getD]
  rw [hnew, hkept, redisString_eq_ok.mpr rfl, ok_bind]

theorem routeFromArgs_resolved (h : routeFromArgs args = .ok route) (username : Text) :
    ∃ resolved, resolveArgs username.bytes args = .ok resolved ∧
      Resolved route username args resolved := by
  cases args with
  | nil => cases h
  | cons command others =>
    rw [routeFromArgs] at h
    split at h
    · next hauth => exact parseAuth_resolved hauth h username
    · next hauth =>
      split at h
      · next hhello => exact parseHello_resolved hauth hhello h username
      · cases h

/-! ## The rewritten buffer -/

theorem parseInitialFrameRoute_eq_some {bytes : Bytes} {consumed : ℕ} :
    parseInitialFrameRoute bytes = .ok (some (route, consumed)) ↔
      ∃ args, parseRespArray bytes = .ok (args, consumed) ∧ routeFromArgs args = .ok route := by
  constructor
  · intro h
    unfold parseInitialFrameRoute at h
    split at h
    · next args consumed' hframe =>
      obtain ⟨route', hroute, h⟩ := bind_eq_ok.mp h
      obtain ⟨rfl, rfl⟩ := Prod.mk.inj (Option.some.inj (Except.ok.inj h))
      exact ⟨args, hframe, hroute⟩
    · cases h
    · cases h
  · rintro ⟨args, hframe, hroute⟩
    rw [parseInitialFrameRoute, hframe]
    dsimp only
    rw [hroute, ok_bind]

/-- The new arguments fit a frame: the only login that grows is an `AUTH` without a username. -/
theorem Resolved.frameArguments {username : Text} {args resolved : List Bytes}
    (h : Resolved route username args resolved) (hargs : FrameArguments args)
    (hlen : username.bytes.length ≤ maxBulkLength) : FrameArguments resolved := by
  obtain ⟨⟨before, after, hold, hnew⟩, -, hfew⟩ := h
  refine ⟨hfew.trans (max_le hargs.few (by decide)), fun argument hargument => ?_⟩
  have hcases : argument = username.bytes ∨ argument ∈ args := by
    rw [hold]
    rw [hnew] at hargument
    simp only [List.mem_append, List.mem_cons] at hargument ⊢
    tauto
  rcases hcases with rfl | hmem
  · exact hlen
  · exact hargs.short argument hmem

/-- What a faithful rewriting of the first frame of the buffer is: the bytes behind the frame stay,
the new frame logs the user in with the password of the old one, and the other arguments stay in
their places around the credentials. -/
structure FaithfulRewrite (original : Bytes) (consumed : ℕ) (route : RedisRoute) (username : Text)
    (rewritten : Bytes) (consumed' : ℕ) : Prop where
  parsed : parseInitialFrameRoute rewritten =
    .ok (some ({ username := some username, password := route.password }, consumed'))
  pipelined : rewritten.drop consumed' = original.drop consumed
  arguments : ∃ before after,
    parseRespArray original = .ok
      (before ++ (route.username.toList.map Text.bytes ++ route.password :: after), consumed) ∧
    parseRespArray rewritten = .ok
      (before ++ username.bytes :: route.password :: after, consumed')

/-- **Rewriting a login is faithful.**  A login without a username, or as `default`, becomes a login
of the resolved user; with any other username the rewriting is refused. -/
theorem login_rewrite_faithful {original : Bytes} {route : RedisRoute} {consumed : ℕ}
    (h : parseInitialFrameRoute original = .ok (some (route, consumed))) (username : Text) :
    ((∀ name ∈ route.username, eqIgnoreAsciiCase name.bytes (ascii "default") = true) →
      username.bytes ≠ [] → Ascii.carriage ∉ username.bytes → Ascii.newline ∉ username.bytes →
      username.bytes.length ≤ 16384 →
      ∃ rewritten consumed',
        route.rewriteWithResolvedUsername original consumed username = .ok rewritten ∧
          FaithfulRewrite original consumed route username rewritten consumed') ∧
    ((∃ name ∈ route.username, eqIgnoreAsciiCase name.bytes (ascii "default") = false) →
      route.rewriteWithResolvedUsername original consumed username = .error .unsupported) := by
  constructor
  · intro hdefault hne hcr hlf hlen
    obtain ⟨args, hframe, hroute⟩ := parseInitialFrameRoute_eq_some.mp h
    obtain ⟨hargs, hconsumed, hagain⟩ := parseRespArray_eq_ok hframe
    obtain ⟨resolved, hresolve, hresolved⟩ := routeFromArgs_resolved hroute username
    have hexplicit : route.hasExplicitUsername = false := by
      rw [RedisRoute.hasExplicitUsername, Option.any_eq_false]
      intro name hname
      simp [hdefault name hname]
    have hvalid : resolvedUsernameIsInvalid username = false := by
      simp [resolvedUsernameIsInvalid, hne, hcr, hlf]
    have hread := parseRespArray_serialize (hresolved.frameArguments hargs hlen)
      (original.drop consumed)
    refine ⟨serializeRespArray resolved ++ original.drop consumed,
      (serializeRespArray resolved).length, ?_, ?_, List.drop_left, ?_⟩
    · have hagain := hagain []
      rw [List.append_nil] at hagain
      rw [RedisRoute.rewriteWithResolvedUsername, hexplicit, hvalid, if_neg (by simpa using hconsumed),
        hagain, ok_bind]
      dsimp only
      rw [if_neg (not_not.mpr rfl), hresolve, ok_bind]
    · exact parseInitialFrameRoute_eq_some.mpr ⟨resolved, hread, hresolved.route⟩
    · obtain ⟨before, after, hold, hnew⟩ := hresolved.around
      exact ⟨before, after, hold ▸ hframe, hnew ▸ hread⟩
  · rintro ⟨name, hname, hother⟩
    have hexplicit : route.hasExplicitUsername = true := by
      rw [RedisRoute.hasExplicitUsername, Option.any_eq_true]
      exact ⟨name, hname, by simp [hother]⟩
    rw [RedisRoute.rewriteWithResolvedUsername, hexplicit, Bool.true_or, Bool.true_or, if_pos rfl]

/-- A client name that spells `AUTH`, the login behind it, and a pipelined `PING`. -/
def helloPacket : Bytes :=
  serializeRespArray [ascii "HELLO", ascii "3", ascii "SETNAME", ascii "AUTH", ascii "AUTH",
    ascii "default", ascii "secret"] ++ serializeRespArray [ascii "PING"]

def authPacket : Bytes := serializeRespArray [ascii "AUTH", ascii "app", ascii "pass"]

def defaultUser : Text := ⟨ascii "default", by decide⟩

def appUser : Text := ⟨ascii "app", by decide⟩

def tenantUser : Text := ⟨ascii "tenant_a", by decide⟩

theorem helloPacket_rewritten_authPacket_refused :
    (∃ rewritten consumed',
      RedisRoute.rewriteWithResolvedUsername ⟨some defaultUser, ascii "secret"⟩ helloPacket 80
        tenantUser = .ok rewritten ∧
      FaithfulRewrite helloPacket 80 ⟨some defaultUser, ascii "secret"⟩ tenantUser rewritten
        consumed') ∧
    RedisRoute.rewriteWithResolvedUsername ⟨some appUser, ascii "pass"⟩ authPacket 33 tenantUser =
      .error .unsupported :=
  ⟨(login_rewrite_faithful (by decide) tenantUser).1 (by decide) (by decide) (by decide) (by decide)
      (by decide),
    (login_rewrite_faithful (by decide) tenantUser).2 (by decide)⟩

end DatabasesEverywhere.Gateway
