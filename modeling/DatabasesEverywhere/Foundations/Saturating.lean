import Mathlib

/-!
# Foundations/Saturating — counters of a fixed-width unsigned type

Values are natural numbers; the operations say where a machine word clips them.
-/

namespace Foundations

/-- `u64::MAX`. -/
def u64Max : ℕ := 2 ^ 64 - 1

/-- `i64::MAX`. -/
def i64Max : ℕ := 2 ^ 63 - 1

/-- `usize::MAX`, on the 64-bit targets. -/
def usizeMax : ℕ := 2 ^ 64 - 1

/-- `saturating_add`, at the type's greatest value. -/
def saturatingAdd (limit a b : ℕ) : ℕ := min (a + b) limit

/-- `saturating_mul`, at the type's greatest value. -/
def saturatingMul (limit a b : ℕ) : ℕ := min (a * b) limit

theorem saturatingAdd_le (limit a b : ℕ) : saturatingAdd limit a b ≤ a + b := Nat.min_le_left _ _

theorem saturatingAdd_eq {limit a b : ℕ} (h : a + b ≤ limit) : saturatingAdd limit a b = a + b :=
  Nat.min_eq_left h

/-- A reservation taken back never leaves more than there was. -/
theorem saturatingAdd_sub_le (limit a b : ℕ) : saturatingAdd limit a b - b ≤ a := by
  have := saturatingAdd_le limit a b
  omega

end Foundations
