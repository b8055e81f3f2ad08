import Mathlib

/-!
# Foundations/Bytes — byte strings, ASCII classes and UTF-8 text

    u8  ──▸  `UInt8`        [u8] ──▸ `Bytes`        str ──▸ `Text`

The byte predicates follow the `u8::is_ascii_*` family: `isAsciiWhitespace` is space, tab, line
feed, form feed and carriage return, and *not* the vertical tab.  A `str` is a byte string that
passes `utf8Valid`, so a `Text` cannot be built from malformed bytes.
-/

namespace Foundations

/-- A byte string. -/
abbrev Bytes := List UInt8

/-- The bytes of an ASCII literal. -/
def ascii (s : String) : Bytes := s.toList.map fun c => c.toNat.toUInt8

namespace Ascii

abbrev nul : UInt8 := 0x00
abbrev newline : UInt8 := 0x0a
abbrev carriage : UInt8 := 0x0d
abbrev space : UInt8 := 0x20
abbrev bang : UInt8 := 0x21
abbrev dquote : UInt8 := 0x22
abbrev hash : UInt8 := 0x23
abbrev dollar : UInt8 := 0x24
abbrev quote : UInt8 := 0x27
abbrev openParen : UInt8 := 0x28
abbrev closeParen : UInt8 := 0x29
abbrev star : UInt8 := 0x2a
abbrev comma : UInt8 := 0x2c
abbrev dash : UInt8 := 0x2d
abbrev dot : UInt8 := 0x2e
abbrev slash : UInt8 := 0x2f
abbrev semicolon : UInt8 := 0x3b
abbrev equal : UInt8 := 0x3d
abbrev upperM : UInt8 := 0x4d
abbrev backslash : UInt8 := 0x5c
abbrev underscore : UInt8 := 0x5f
abbrev backtick : UInt8 := 0x60

end Ascii

/-! ## ASCII classes -/

variable (b : UInt8)

def isAsciiWhitespace : Bool :=
  b == 0x20 || b == 0x09 || b == 0x0a || b == 0x0c || b == 0x0d

def isAsciiControl : Bool := b < 0x20 || b == 0x7f

def isAsciiDigit : Bool := 0x30 ≤ b && b ≤ 0x39

def isAsciiUppercase : Bool := 0x41 ≤ b && b ≤ 0x5a

def isAsciiLowercase : Bool := 0x61 ≤ b && b ≤ 0x7a

def isAsciiAlphanumeric : Bool :=
  isAsciiDigit b || isAsciiUppercase b || isAsciiLowercase b

def toAsciiLowercase : UInt8 := if isAsciiUppercase b then b + 0x20 else b

def toAsciiUppercase : UInt8 := if isAsciiLowercase b then b - 0x20 else b

/-- `eq_ignore_ascii_case` on byte strings. -/
def eqIgnoreAsciiCase (a b : Bytes) : Bool := a.map toAsciiLowercase == b.map toAsciiLowercase

/-- `char::is_ascii_whitespace`. -/
def isBlank (c : Char) : Bool := c.toNat < 0x80 && isAsciiWhitespace c.toNat.toUInt8

/-- `char::is_whitespace`: Unicode's white space, which `str::trim` removes at both ends. -/
def isWhitespace (c : Char) : Bool :=
  let n := c.toNat
  9 ≤ n && n ≤ 13 || 0x2000 ≤ n && n ≤ 0x200a ||
    [0x20, 0x85, 0xa0, 0x1680, 0x2028, 0x2029, 0x202f, 0x205f, 0x3000].contains n

/-- A property of bytes that holds for each of them. -/
theorem forall_byte {p : UInt8 → Prop} (h : ∀ n : Fin 256, p (UInt8.ofFin n))
    (b : UInt8) : p b := by
  have := h b.toFin
  rwa [UInt8.ofFin_toFin] at this

@[simp] theorem toAsciiUppercase_toAsciiLowercase :
    toAsciiUppercase (toAsciiLowercase b) = toAsciiUppercase b :=
  @forall_byte (fun b => toAsciiUppercase (toAsciiLowercase b) = toAsciiUppercase b)
    (by decide +kernel) b

@[simp] theorem toAsciiLowercase_toAsciiUppercase :
    toAsciiLowercase (toAsciiUppercase b) = toAsciiLowercase b :=
  @forall_byte (fun b => toAsciiLowercase (toAsciiUppercase b) = toAsciiLowercase b)
    (by decide +kernel) b

/-- Words are equal up to case exactly if they are equal in upper case. -/
theorem eqIgnoreAsciiCase_iff {a b : Bytes} :
    eqIgnoreAsciiCase a b = true ↔ a.map toAsciiUppercase = b.map toAsciiUppercase := by
  have hupper : ∀ l : Bytes, (l.map toAsciiLowercase).map toAsciiUppercase =
      l.map toAsciiUppercase := fun l => by simp
  have hlower : ∀ l : Bytes, (l.map toAsciiUppercase).map toAsciiLowercase =
      l.map toAsciiLowercase := fun l => by simp
  rw [eqIgnoreAsciiCase, beq_iff_eq]
  constructor
  · intro h
    rw [← hupper a, h, hupper]
  · intro h
    rw [← hlower a, h, hlower]

/-! ## UTF-8

The accepted sequences are those of the Unicode standard's table of well-formed byte sequences:
overlong forms and surrogates are refused through the range of the second byte. -/

/-- A continuation byte `10xxxxxx`. -/
def isContinuation : Bool := 0x80 ≤ b && b ≤ 0xbf

/-- The second byte a three-byte lead allows. -/
def secondOfThree (lead b : UInt8) : Bool :=
  if lead == 0xe0 then 0xa0 ≤ b && b ≤ 0xbf
  else if lead == 0xed then 0x80 ≤ b && b ≤ 0x9f
  else isContinuation b

/-- The second byte a four-byte lead allows. -/
def secondOfFour (lead b : UInt8) : Bool :=
  if lead == 0xf0 then 0x90 ≤ b && b ≤ 0xbf
  else if lead == 0xf4 then 0x80 ≤ b && b ≤ 0x8f
  else isContinuation b

/-- Whether a byte string is well-formed UTF-8. -/
def utf8Valid : Bytes → Bool
  | [] => true
  | [a] => a < 0x80
  | [a, b] =>
    if a < 0x80 then utf8Valid [b] else 0xc2 ≤ a && a ≤ 0xdf && isContinuation b
  | [a, b, c] =>
    if a < 0x80 then utf8Valid [b, c]
    else if a ≤ 0xdf then 0xc2 ≤ a && isContinuation b && utf8Valid [c]
    else a ≤ 0xef && secondOfThree a b && isContinuation c
  | a :: b :: c :: d :: rest =>
    if a < 0x80 then utf8Valid (b :: c :: d :: rest)
    else if a ≤ 0xdf then 0xc2 ≤ a && isContinuation b && utf8Valid (c :: d :: rest)
    else if a ≤ 0xef then
      secondOfThree a b && isContinuation c && utf8Valid (d :: rest)
    else
      a ≤ 0xf4 && secondOfFour a b && isContinuation c && isContinuation d && utf8Valid rest

/-- A `str`: bytes that carry the proof of their own well-formedness. -/
@[ext] structure Text where
  bytes : Bytes
  valid : utf8Valid bytes = true
  deriving DecidableEq

namespace Text

/-- `std::str::from_utf8`. -/
def fromUtf8 (bytes : Bytes) : Option Text :=
  if h : utf8Valid bytes = true then some ⟨bytes, h⟩ else none

theorem fromUtf8_eq_some {bytes : Bytes} {t : Text} :
    fromUtf8 bytes = some t ↔ t.bytes = bytes := by
  unfold fromUtf8
  constructor
  · intro h
    split at h
    · obtain rfl := Option.some.inj h
      rfl
    · cases h
  · rintro rfl
    exact dif_pos t.valid

@[simp] theorem fromUtf8_bytes (t : Text) : fromUtf8 t.bytes = some t := fromUtf8_eq_some.mpr rfl

end Text

end Foundations
