import DatabasesEverywhere.Foundations.Occurrences
import DatabasesEverywhere.Sql.Lexer

/-!
# Sql/DollarQuotes — where a dollar-quoted string ends

    … $t  $ta  $tag$ …
      ─▸0 ─▸1        ▲ the first occurrence of the delimiter

On a mismatch `skipDollarString` keeps one matched byte or none.  That misses no occurrence: a `$`
stands nowhere inside the part matched so far, so only the byte that did not match can start one
(`firstEnd_mismatch`).  The string ends with the first occurrence of its delimiter
(`skipDollarString_exact`).
-/

open Foundations

namespace DatabasesEverywhere.Sql

/-- `$tag$`. -/
def dollarDelimiter (tag : Bytes) : Bytes := Ascii.dollar :: (tag ++ [Ascii.dollar])

variable {tag input rest : Bytes} {matched : ℕ} {byte : UInt8}

theorem take_append_cons {delimiter : Bytes} (hbyte : delimiter[matched]? = some byte) :
    delimiter.take matched ++ byte :: input = delimiter.take (matched + 1) ++ input := by
  rw [List.take_add_one, hbyte, Option.toList_some, List.append_assoc, List.singleton_append]

section Tag

variable (htag : ∀ byte ∈ tag, byte ≠ Ascii.dollar)
include htag

/-- **A mismatch loses no occurrence**: none starts inside the part matched so far. -/
theorem firstEnd_mismatch (hmatched : matched < (dollarDelimiter tag).length)
    (hbyte : (dollarDelimiter tag)[matched]? ≠ some byte) :
    FirstEnd (dollarDelimiter tag) ((dollarDelimiter tag).take matched ++ byte :: input) rest ↔
      FirstEnd (dollarDelimiter tag) (byte :: input) rest := by
  refine firstEnd_append fun k hk hprefix => ?_
  rw [List.length_take, Nat.lt_min] at hk
  cases k with
  | zero =>
    have hget := List.prefix_iff_getElem?.mp hprefix matched hmatched
    rw [List.drop_zero, List.getElem?_append_right (List.length_take_le _ _), List.length_take,
      Nat.min_eq_left hmatched.le, Nat.sub_self] at hget
    exact hbyte (List.getElem?_eq_some_iff.mpr ⟨hmatched, (Option.some.inj hget).symm⟩)
  | succ k =>
    have hlt : k < tag.length := by
      simp only [dollarDelimiter, List.length_cons, List.length_append, List.length_nil] at hmatched
      omega
    have hget := List.prefix_iff_getElem?.mp hprefix 0 (Nat.succ_pos _)
    rw [List.getElem?_append_left (by simp; omega), List.getElem?_drop, List.getElem?_take] at hget
    simp only [dollarDelimiter, Nat.add_zero, hk.1, if_true, List.getElem?_cons_succ,
      List.getElem?_append_left hlt, List.getElem_cons_zero] at hget
    exact htag _ (List.mem_of_getElem? hget) rfl

theorem skipDollarString_eq_ok (hmatched : matched < (dollarDelimiter tag).length) :
    skipDollarString (dollarDelimiter tag) matched input = .ok rest ↔
      FirstEnd (dollarDelimiter tag) ((dollarDelimiter tag).take matched ++ input) rest := by
  fun_induction skipDollarString (dollarDelimiter tag) matched input with
  | case1 =>
    refine iff_of_false (by simp) ?_
    rintro ⟨before, heq, -⟩
    have hlength := congrArg List.length heq
    simp only [List.length_append, List.length_take, List.length_nil] at hlength
    omega
  | case2 matched byte input hbyte hlast =>
    rw [take_append_cons hbyte, hlast, List.take_length, firstEnd_of_prefix, Except.ok.injEq]
  | case3 matched byte input hbyte hlast ih =>
    rw [take_append_cons hbyte]
    exact ih (by omega)
  | case4 matched byte input hbyte ih =>
    rw [firstEnd_mismatch htag hmatched hbyte]
    by_cases hdollar : (dollarDelimiter tag).head? = some byte
    · rw [if_pos hdollar] at ih ⊢
      obtain rfl := Option.some.inj hdollar
      exact ih (by simp [dollarDelimiter])
    · rw [if_neg hdollar] at ih ⊢
      have hnone : ¬ dollarDelimiter tag <+: byte :: input := fun hprefix =>
        hdollar (congrArg some (List.cons_prefix_cons.mp hprefix).1)
      rw [firstEnd_cons hnone]
      exact ih (Nat.succ_pos _)

end Tag

/-- **A dollar-quoted string ends with the first occurrence of its delimiter**, and is unterminated
if there is none. -/
theorem skipDollarString_exact
    (htag : ∀ byte ∈ tag, (isAsciiAlphanumeric byte || byte == Ascii.underscore) = true)
    (input : Bytes) :
    (∀ rest, skipDollarString (dollarDelimiter tag) 0 input = .ok rest ↔
      FirstEnd (dollarDelimiter tag) input rest) ∧
    ((∃ e, skipDollarString (dollarDelimiter tag) 0 input = .error e) ↔
      ¬ dollarDelimiter tag <:+: input) := by
  have hok (rest : Bytes) : skipDollarString (dollarDelimiter tag) 0 input = .ok rest ↔
      FirstEnd (dollarDelimiter tag) input rest :=
    skipDollarString_eq_ok (fun byte hbyte hdollar => absurd (hdollar ▸ htag byte hbyte) (by decide))
      (Nat.succ_pos _)
  refine ⟨hok, ?_⟩
  rw [← exists_firstEnd]
  simp only [← hok]
  cases skipDollarString (dollarDelimiter tag) 0 input with
  | error e => simp
  | ok rest => simp

/-- The first of three `$` starts no occurrence of `$a$`. -/
theorem skipDollarString_exact_overlap :
    skipDollarString (dollarDelimiter [97]) 0 [36, 36, 97, 36, 97] = .ok [97] :=
  ((skipDollarString_exact (List.forall_mem_singleton.mpr rfl) _).1 _).mpr ⟨[36], by decide, by decide⟩

end DatabasesEverywhere.Sql
