import DatabasesEverywhere.Foundations.Codes

/-!
# Backup/Catalog — object ids

    escape namespace . escape name

The separator is escaped inside the two parts, and so is the character that escapes it.  The first
dot without an escape is therefore the separator, and an id names one object
(`objectId_injective`).
-/

open Foundations

namespace DatabasesEverywhere.Backup

/-- `str::replace` of one character. -/
def replace (old : Char) (new : List Char) (value : List Char) : List Char :=
  value.flatMap fun c => if c = old then new else [c]

def escape (value : List Char) : List Char :=
  replace '.' ['\\', '.'] (replace '\\' ['\\', '\\'] value)

def objectId (ns name : List Char) : List Char := escape ns ++ ['.'] ++ escape name

/-- What the two replacements leave of one character. -/
def escapedChar (c : Char) : List Char :=
  if c = '\\' then ['\\', '\\'] else if c = '.' then ['\\', '.'] else [c]

theorem escape_eq_flatMap (value : List Char) : escape value = value.flatMap escapedChar := by
  induction value with
  | nil => rfl
  | cons c value ih =>
    rw [List.flatMap_cons, ← ih]
    simp only [escape, replace, List.flatMap_cons, List.flatMap_append]
    congr 1
    unfold escapedChar
    split_ifs <;> simp_all

theorem escapedChar_selfDelimiting : SelfDelimiting escapedChar := by
  intro a b x y h
  unfold escapedChar at h
  split_ifs at h <;> grind

theorem escapedChar_append_ne_dot (c : Char) (rest x : List Char) :
    escapedChar c ++ rest ≠ '.' :: x := by
  unfold escapedChar
  split_ifs <;> simp_all

theorem escape_injective : Function.Injective escape := by
  intro first second h
  rw [escape_eq_flatMap, escape_eq_flatMap] at h
  exact escapedChar_selfDelimiting.flatMap_injective
    (fun c hnil => escapedChar_append_ne_dot c ['.'] [] (by rw [hnil, List.nil_append])) h

/-- **An id names one object.** -/
theorem objectId_injective : Function.Injective2 objectId := by
  intro ns ns' name name' h
  rw [objectId, objectId, escape_eq_flatMap ns, escape_eq_flatMap ns'] at h
  obtain ⟨hns, hname⟩ := escapedChar_selfDelimiting.stopped escapedChar_append_ne_dot h
  exact ⟨hns, escape_injective hname⟩

end DatabasesEverywhere.Backup
