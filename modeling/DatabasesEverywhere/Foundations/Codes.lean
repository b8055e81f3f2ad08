import DatabasesEverywhere.Foundations.Bytes

/-!
# Foundations/Codes — encodings that can be read back

    ┌ length ┬ bytes ──┐┌ length ┬ bytes ┐ …
    └ 8      ┴ length ─┘└ 8      ┴ …     ┘

An encoding is self-delimiting if what follows it can be told from it.  Values encoded one after the
other are then determined by the whole (`SelfDelimiting.flatMap_injective`).  Numbers are written
with a fixed width, most significant byte first.
-/

namespace Foundations

section Delimiting

universe u v

variable {α : Type u} {β : Type v}

/-- The encoded value and what follows are both determined. -/
def SelfDelimiting (encode : α → List β) : Prop :=
  ∀ ⦃a b : α⦄ ⦃x y : List β⦄, encode a ++ x = encode b ++ y → a = b ∧ x = y

variable {encode : α → List β}

theorem selfDelimiting_of_length {n : ℕ} (hlength : ∀ a, (encode a).length = n)
    (hinj : Function.Injective encode) : SelfDelimiting encode := by
  intro a b x y h
  obtain ⟨hab, hxy⟩ := List.append_inj h (by rw [hlength, hlength])
  exact ⟨hinj hab, hxy⟩

/-- **Values one after the other.** -/
theorem SelfDelimiting.flatMap_injective (h : SelfDelimiting encode) (hne : ∀ a, encode a ≠ []) :
    Function.Injective fun values : List α => values.flatMap encode := by
  intro first second heq
  induction first generalizing second with
  | nil =>
    cases second with
    | nil => rfl
    | cons b second =>
      simp only [List.flatMap_nil, List.flatMap_cons, List.nil_eq, List.append_eq_nil_iff] at heq
      exact absurd heq.1 (hne b)
  | cons a first ih =>
    cases second with
    | nil =>
      simp only [List.flatMap_nil, List.flatMap_cons, List.append_eq_nil_iff] at heq
      exact absurd heq.1 (hne a)
    | cons b second =>
      obtain ⟨rfl, hrest⟩ := h heq
      rw [ih hrest]

/-- **Values up to a stop** that begins none of them. -/
theorem SelfDelimiting.stopped (h : SelfDelimiting encode) {stop : β}
    (hstop : ∀ a rest x, encode a ++ rest ≠ stop :: x) :
    SelfDelimiting fun values : List α => values.flatMap encode ++ [stop] := by
  intro first second x y heq
  simp only [List.append_assoc, List.singleton_append] at heq
  induction first generalizing second with
  | nil =>
    cases second with
    | nil => exact ⟨rfl, List.tail_eq_of_cons_eq heq⟩
    | cons b second =>
      rw [List.flatMap_cons, List.append_assoc] at heq
      exact absurd heq.symm (hstop b _ x)
  | cons a first ih =>
    rw [List.flatMap_cons, List.append_assoc] at heq
    cases second with
    | nil => exact absurd heq (hstop a _ y)
    | cons b second =>
      rw [List.flatMap_cons, List.append_assoc] at heq
      obtain ⟨rfl, hrest⟩ := h heq
      obtain ⟨rfl, hxy⟩ := ih hrest
      exact ⟨rfl, hxy⟩

end Delimiting

/-! ## Numbers of fixed width -/

/-- `to_be_bytes` of a number of `width` bytes. -/
def bigEndian : ℕ → ℕ → Bytes
  | 0, _ => []
  | width + 1, n => bigEndian width (n / 256) ++ [n.toUInt8]

variable (bytes : Bytes)

/-- `from_be_bytes`. -/
def fromBigEndian : ℕ := bytes.foldl (fun value byte => value * 256 + byte.toNat) 0

@[simp] theorem length_bigEndian (width n : ℕ) : (bigEndian width n).length = width := by
  induction width generalizing n with
  | zero => rfl
  | succ width ih => rw [bigEndian, List.length_append, ih, List.length_singleton]

theorem fromBigEndian_bigEndian (width n : ℕ) :
    fromBigEndian (bigEndian width n) = n % 256 ^ width := by
  induction width generalizing n with
  | zero => simp [bigEndian, fromBigEndian, Nat.mod_one]
  | succ width ih =>
    have hstep : fromBigEndian (bigEndian width (n / 256) ++ [n.toUInt8]) =
        fromBigEndian (bigEndian width (n / 256)) * 256 + n.toUInt8.toNat := by
      simp [fromBigEndian]
    rw [bigEndian, hstep, ih, Nat.pow_succ', Nat.mod_mul, Nat.toUInt8_eq, UInt8.toNat_ofNat']
    omega

theorem bigEndian_inj {width m n : ℕ} (hm : m < 256 ^ width) (hn : n < 256 ^ width)
    (h : bigEndian width m = bigEndian width n) : m = n := by
  have heq := congrArg fromBigEndian h
  rwa [fromBigEndian_bigEndian, fromBigEndian_bigEndian, Nat.mod_eq_of_lt hm,
    Nat.mod_eq_of_lt hn] at heq

/-- `to_le_bytes` of a number of `width` bytes. -/
def littleEndian (width n : ℕ) : Bytes := (bigEndian width n).reverse

/-- `from_le_bytes`. -/
def fromLittleEndian : ℕ := fromBigEndian bytes.reverse

@[simp] theorem length_littleEndian (width n : ℕ) : (littleEndian width n).length = width := by
  rw [littleEndian, List.length_reverse, length_bigEndian]

theorem fromLittleEndian_littleEndian (width n : ℕ) :
    fromLittleEndian (littleEndian width n) = n % 256 ^ width := by
  rw [fromLittleEndian, littleEndian, List.reverse_reverse, fromBigEndian_bigEndian]

/-! ## Fields with their length in front -/

/-- The length in eight bytes, then the bytes. -/
def lengthPrefixed : Bytes := bigEndian 8 bytes.length ++ bytes

theorem lengthPrefixed_append_inj {a b x y : Bytes} (ha : a.length < 2 ^ 64)
    (hb : b.length < 2 ^ 64) (h : lengthPrefixed a ++ x = lengthPrefixed b ++ y) :
    a = b ∧ x = y := by
  rw [lengthPrefixed, lengthPrefixed, List.append_assoc, List.append_assoc] at h
  obtain ⟨hlength, hrest⟩ := List.append_inj h (by simp)
  exact List.append_inj hrest (bigEndian_inj ha hb hlength)

theorem lengthPrefixed_ne_nil : lengthPrefixed bytes ≠ [] := by
  intro h
  have hlength := congrArg List.length h
  rw [lengthPrefixed, List.length_append, length_bigEndian, List.length_nil] at hlength
  omega

/-! ## Hexadecimal texts -/

/-- What is known of the crate `hex`: `decode` stands for `decode_to_slice`, into a slice of so many
bytes. -/
structure Hex where
  encode : Bytes → List Char
  decode : ℕ → List Char → Option Bytes
  length_encode : ∀ bytes, (encode bytes).length = 2 * bytes.length
  decode_encode : ∀ bytes, decode bytes.length (encode bytes) = some bytes
  length_of_decode : ∀ size value bytes, decode size value = some bytes → bytes.length = size

/-- A text is the code of one byte string. -/
theorem Hex.encode_injective (hex : Hex) : Function.Injective hex.encode := by
  intro first second h
  have hlength : first.length = second.length := by
    have hdouble := hex.length_encode first
    rw [h, hex.length_encode] at hdouble
    omega
  have hdecode := hex.decode_encode first
  rw [h, hlength, hex.decode_encode] at hdecode
  exact (Option.some.inj hdecode).symm

/-- The digit of a number below sixteen, in lower case. -/
def hexDigit (n : ℕ) : Char := if n < 10 then Char.ofNat (48 + n) else Char.ofNat (87 + n)

/-- Two digits for each byte. -/
def hexEncode : List Char :=
  bytes.flatMap fun byte => [hexDigit (byte.toNat / 16), hexDigit (byte.toNat % 16)]

/-- The value of a digit, in either case. -/
def hexValue (c : Char) : Option ℕ :=
  if 'A' ≤ c ∧ c ≤ 'F' then some (c.toNat - 'A'.toNat + 10)
  else if 'a' ≤ c ∧ c ≤ 'f' then some (c.toNat - 'a'.toNat + 10)
  else if '0' ≤ c ∧ c ≤ '9' then some (c.toNat - '0'.toNat)
  else none

/-- The bytes of pairs of digits. -/
def hexPairs : List Char → Option Bytes
  | [] => some []
  | [_] => none
  | high :: low :: rest => do
    let high ← hexValue high
    let low ← hexValue low
    let bytes ← hexPairs rest
    some ((high * 16 + low).toUInt8 :: bytes)

theorem hexValue_hexDigit {n : ℕ} (h : n < 16) : hexValue (hexDigit n) = some n := by
  interval_cases n <;> rfl

theorem length_hexEncode : (hexEncode bytes).length = 2 * bytes.length := by
  induction bytes with
  | nil => rfl
  | cons byte bytes ih =>
    rw [hexEncode, List.flatMap_cons, List.length_append, ← hexEncode, ih, List.length_cons,
      List.length_cons, List.length_cons, List.length_nil]
    omega

theorem hexPairs_hexEncode : hexPairs (hexEncode bytes) = some bytes := by
  induction bytes with
  | nil => rfl
  | cons byte bytes ih =>
    have hlt := byte.toNat_lt
    have hbyte : (byte.toNat / 16 * 16 + byte.toNat % 16).toUInt8 = byte := by
      rw [Nat.mul_comm, Nat.div_add_mod, Nat.toUInt8_eq, UInt8.ofNat_toNat]
    change hexPairs (hexDigit (byte.toNat / 16) :: hexDigit (byte.toNat % 16) ::
      hexEncode bytes) = _
    rw [hexPairs, hexValue_hexDigit (by omega), hexValue_hexDigit (by omega), ih]
    change some (_ :: bytes) = _
    rw [hbyte]

/-- Such a code: lower case is written, and either case is read. -/
def hexLower : Hex where
  encode := hexEncode
  decode size value := (hexPairs value).filter (·.length = size)
  length_encode := length_hexEncode
  decode_encode bytes := by
    rw [hexPairs_hexEncode, Option.filter_some, if_pos (decide_eq_true rfl)]
  length_of_decode _ _ _ h := of_decide_eq_true (Option.filter_eq_some_iff.mp h).2

end Foundations
