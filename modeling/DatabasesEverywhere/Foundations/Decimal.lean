import DatabasesEverywhere.Foundations.Bytes

/-!
# Foundations/Decimal — decimal numbers as bytes

`decimal n` is what `n.to_string()` writes, and `parseDecimal` reads digits into a machine word.
The recursion both follow takes the last digit off:

    decimal n  =  decimal (n / 10) ‖ digit (n % 10)
-/

namespace Foundations

/-- `to_string` of a number. -/
def decimal (n : ℕ) : Bytes := (Nat.toDigits 10 n).map fun c => c.toNat.toUInt8

/-- The byte of a digit. -/
def digitByte (d : ℕ) : UInt8 := 0x30 + d.toUInt8

theorem byte_digitChar {d : ℕ} (h : d < 10) : (Nat.digitChar d).toNat.toUInt8 = digitByte d := by
  interval_cases d <;> rfl

variable {n : ℕ}

theorem decimal_of_lt (h : n < 10) : decimal n = [digitByte n] := by
  rw [decimal, Nat.toDigits_of_lt_base h, List.map_singleton, byte_digitChar h]

theorem decimal_of_le (h : 10 ≤ n) : decimal n = decimal (n / 10) ++ [digitByte (n % 10)] := by
  rw [decimal, Nat.toDigits_of_base_le (by decide) h, List.map_append, List.map_singleton,
    byte_digitChar (Nat.mod_lt _ (by decide)), ← decimal]

/-- **Induction on the last digit.** -/
theorem decimal_induction {motive : ℕ → Prop} (digit : ∀ n < 10, motive n)
    (more : ∀ n, 10 ≤ n → motive (n / 10) → motive n) (n : ℕ) : motive n := by
  induction n using Nat.strong_induction_on with
  | _ n ih =>
    rcases Nat.lt_or_ge n 10 with hlt | hge
    · exact digit n hlt
    · exact more n hge (ih (n / 10) (Nat.div_lt_self (by omega) (by decide)))

theorem isAsciiDigit_digitByte {d : ℕ} (h : d < 10) : isAsciiDigit (digitByte d) = true := by
  interval_cases d <;> rfl

theorem decimal_ne_nil (n : ℕ) : decimal n ≠ [] := by
  simp [decimal, Nat.toDigits_ne_nil]

theorem isAsciiDigit_of_mem_decimal {b : UInt8} (h : b ∈ decimal n) : isAsciiDigit b = true := by
  induction n using decimal_induction with
  | digit n hlt =>
    rw [decimal_of_lt hlt, List.mem_singleton] at h
    exact h ▸ isAsciiDigit_digitByte hlt
  | more n hge ih =>
    rw [decimal_of_le hge, List.mem_append, List.mem_singleton] at h
    rcases h with h | rfl
    · exact ih h
    · exact isAsciiDigit_digitByte (Nat.mod_lt _ (by decide))

/-! ## Reading digits -/

/-- One more digit, unless the word overflows. -/
def pushDigit (limit value : ℕ) (b : UInt8) : Option ℕ :=
  if isAsciiDigit b && 10 * value + (b - 0x30).toNat ≤ limit then
    some (10 * value + (b - 0x30).toNat)
  else none

/-- Digits read into a word, from the left. -/
def parseDecimal (limit : ℕ) (digits : Bytes) : Option ℕ := digits.foldlM (pushDigit limit) 0

theorem pushDigit_digitByte {limit value d : ℕ} (hd : d < 10) (h : 10 * value + d ≤ limit) :
    pushDigit limit value (digitByte d) = some (10 * value + d) := by
  have hbyte : (digitByte d - 0x30).toNat = d := by interval_cases d <;> rfl
  simp [pushDigit, isAsciiDigit_digitByte hd, hbyte, h]

/-- **What was written is read back**, if it fits the word. -/
theorem parseDecimal_decimal {limit : ℕ} (h : n ≤ limit) :
    parseDecimal limit (decimal n) = some n := by
  unfold parseDecimal
  induction n using decimal_induction with
  | digit n hlt =>
    rw [decimal_of_lt hlt]
    have hpush := @pushDigit_digitByte limit 0 n hlt (by omega)
    simpa using hpush
  | more n hge ih =>
    rw [decimal_of_le hge, List.foldlM_append, ih (by omega)]
    have hpush := @pushDigit_digitByte limit (n / 10) (n % 10) (Nat.mod_lt _ (by decide)) (by omega)
    simpa [show 10 * (n / 10) + n % 10 = n by omega] using hpush

end Foundations
