import DatabasesEverywhere.Foundations.Codes
import DatabasesEverywhere.Foundations.Result

/-!
# Gateway/NativePassword — a password proof that is passed on

    client                     gateway                           backend
    stage1 = H p               stage2 = H (H p)                  stage2
    t = stage1 ⊕ H (g ‖ stage2)  ──▸  stage1 = t ⊕ H (g ‖ stage2)
                               H stage1 = stage2 ?
                               t' = stage1 ⊕ H (s ‖ stage2)  ──▸  …

The gateway knows `stage2` and the seed `g` it has sent itself.  Out of a token for `g` it makes the
token for the seed `s` of the backend, and it does so for no other token.  The digest is any
function into twenty bytes.
-/

open Foundations

namespace DatabasesEverywhere.MysqlHandshake

/-- A digest of `size` bytes. -/
structure Digest (size : ℕ) where
  digest : Bytes → Bytes
  length_digest : ∀ input, (digest input).length = size

attribute [simp] Digest.length_digest

/-- A digest whose values on some inputs were computed elsewhere; each is written as one number. -/
def Digest.recorded (size : ℕ) (values : List (Bytes × ℕ)) : Digest size where
  digest input := bigEndian size ((values.lookup input).getD 0)
  length_digest _ := length_bigEndian size _

inductive MariadbProxyError
  | malformedPacket
  | missingPassword
  | nativePasswordPluginRequired
  | invalidNativePasswordVerifier
  | missingBackendPassword
  | authenticationFailed
  | unsupportedBackendAuth (plugin : Text)
  deriving DecidableEq

/-! ## Tokens -/

/-- The shorter side ends the result. -/
def xorBytes (left right : Bytes) : Bytes := List.zipWith (· ^^^ ·) left right

section Tokens

variable (hex : Hex) (sha1 : Digest 20) (sha256 : Digest 32) (password : Text)

def nativePasswordSha1Stage2Hex : List Char :=
  hex.encode (sha1.digest (sha1.digest password.bytes))

def nativePasswordToken (seed : Bytes) : Bytes :=
  if password.bytes.isEmpty then []
  else
    let stage1 := sha1.digest password.bytes
    let stage2 := sha1.digest stage1
    let stage3 := sha1.digest (seed ++ stage2)
    xorBytes stage1 stage3

def cachingSha2PasswordToken (seed : Bytes) : Bytes :=
  if password.bytes.isEmpty then []
  else
    let stage1 := sha256.digest password.bytes
    let stage2 := sha256.digest stage1
    let stage3 := sha256.digest stage2
    xorBytes stage1 (sha256.digest (stage3 ++ seed))

def nativePasswordChallenge (seed stage2 : Bytes) : Bytes := sha1.digest (seed ++ stage2)

def hexDecode20 (value : List Char) : Except MariadbProxyError Bytes :=
  match hex.decode 20 value with
  | some bytes => .ok bytes
  | none => .error .invalidNativePasswordVerifier

def deriveNativeBackendToken (clientToken gatewaySeed backendSeed : Bytes)
    (nativePasswordSha1Stage2Hex : List Char) : Except MariadbProxyError Bytes := do
  let stage2 ← hexDecode20 hex nativePasswordSha1Stage2Hex
  if clientToken.length ≠ stage2.length then .error .authenticationFailed
  else
    let gatewayChallenge := nativePasswordChallenge sha1 gatewaySeed stage2
    let stage1 := xorBytes clientToken gatewayChallenge
    let derivedStage2 := sha1.digest stage1
    if derivedStage2 ≠ stage2 then .error .authenticationFailed
    else .ok (xorBytes stage1 (nativePasswordChallenge sha1 backendSeed stage2))

end Tokens

theorem length_xorBytes (left right : Bytes) :
    (xorBytes left right).length = min left.length right.length :=
  List.length_zipWith

/-- What is masked twice is as before. -/
theorem xorBytes_xorBytes {left right : Bytes} (h : left.length = right.length) :
    xorBytes (xorBytes left right) right = left := by
  induction left generalizing right with
  | nil => rfl
  | cons a left ih =>
    cases right with
    | nil => cases h
    | cons b right =>
      have hhead : a ^^^ b ^^^ b = a := by rw [UInt8.xor_assoc, UInt8.xor_self, UInt8.xor_zero]
      have htail := ih (Nat.succ.inj h)
      simp only [xorBytes, List.zipWith_cons_cons] at htail ⊢
      rw [hhead, htail]

variable {hex : Hex} {sha1 : Digest 20} {sha256 : Digest 32}

theorem hexDecode20_eq_ok {value : List Char} {stage2 : Bytes} :
    hexDecode20 hex value = .ok stage2 ↔ hex.decode 20 value = some stage2 := by
  rw [hexDecode20]
  cases hex.decode 20 value <;> simp

/-- The token is a proof for the verifier, under the seed. -/
def Proves (sha1 : Digest 20) (token seed stage2 : Bytes) : Prop :=
  token.length = 20 ∧ sha1.digest (xorBytes token (sha1.digest (seed ++ stage2))) = stage2

instance (token seed stage2 : Bytes) : Decidable (Proves sha1 token seed stage2) :=
  inferInstanceAs (Decidable (_ ∧ _))

variable {clientToken gatewaySeed backendSeed token : Bytes} {verifier : List Char}

/-- **Which tokens are passed on**, and as what. -/
theorem deriveNativeBackendToken_eq_ok :
    deriveNativeBackendToken hex sha1 clientToken gatewaySeed backendSeed verifier = .ok token ↔
      ∃ stage2, hexDecode20 hex verifier = .ok stage2 ∧ Proves sha1 clientToken gatewaySeed stage2 ∧
        token = xorBytes (xorBytes clientToken (sha1.digest (gatewaySeed ++ stage2)))
          (sha1.digest (backendSeed ++ stage2)) := by
  rw [deriveNativeBackendToken, bind_eq_ok]
  refine exists_congr fun stage2 => and_congr_right fun hstage2 => ?_
  have hlength : stage2.length = 20 := hex.length_of_decode _ _ _ (hexDecode20_eq_ok.mp hstage2)
  rw [ite_error_eq_ok, ite_error_eq_ok, not_not, not_not, hlength, Proves, and_assoc,
    Except.ok.injEq, eq_comm (b := token)]
  rfl

/-- A token that is passed on has twenty bytes again. -/
theorem length_derived
    (h : deriveNativeBackendToken hex sha1 clientToken gatewaySeed backendSeed verifier = .ok token) :
    token.length = 20 := by
  obtain ⟨stage2, -, ⟨hlength, -⟩, rfl⟩ := deriveNativeBackendToken_eq_ok.mp h
  rw [length_xorBytes, length_xorBytes, hlength, sha1.length_digest, sha1.length_digest]
  rfl

/-- **The honest token is keyed again** to the seed of the backend. -/
theorem derive_nativePasswordToken {password : Text} (hpassword : password.bytes ≠ [])
    (gatewaySeed backendSeed : Bytes) :
    deriveNativeBackendToken hex sha1 (nativePasswordToken sha1 password gatewaySeed) gatewaySeed
        backendSeed (nativePasswordSha1Stage2Hex hex sha1 password) =
      .ok (nativePasswordToken sha1 password backendSeed) := by
  have hnonempty : ¬ password.bytes.isEmpty = true := by simpa using hpassword
  have htoken : ∀ seed, nativePasswordToken sha1 password seed =
      xorBytes (sha1.digest password.bytes)
        (sha1.digest (seed ++ sha1.digest (sha1.digest password.bytes))) := by
    intro seed
    rw [nativePasswordToken, if_neg hnonempty]
  have hunmask : ∀ seed, xorBytes (nativePasswordToken sha1 password seed)
      (sha1.digest (seed ++ sha1.digest (sha1.digest password.bytes))) =
        sha1.digest password.bytes := by
    intro seed
    rw [htoken, xorBytes_xorBytes (by rw [sha1.length_digest, sha1.length_digest])]
  refine deriveNativeBackendToken_eq_ok.mpr
    ⟨sha1.digest (sha1.digest password.bytes), ?_, ⟨?_, ?_⟩, ?_⟩
  · have hdecode := hex.decode_encode (sha1.digest (sha1.digest password.bytes))
    rw [sha1.length_digest] at hdecode
    exact hexDecode20_eq_ok.mpr hdecode
  · rw [htoken, length_xorBytes, sha1.length_digest, sha1.length_digest]
    rfl
  · rw [hunmask]
  · rw [hunmask, htoken]

end DatabasesEverywhere.MysqlHandshake
