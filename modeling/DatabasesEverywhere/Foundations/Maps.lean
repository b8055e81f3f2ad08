import Mathlib

/-!
# Foundations/Maps — finite maps with a value type

A `Map K V` is an association list without repeated keys: it can be looked up, changed at a key and
walked entry by entry.  `filterMap` is the walk that keeps, drops or changes each entry, and a
lookup after it is the lookup before it, filtered.
-/

namespace Foundations

universe u v w

variable {K : Type u} {V : Type v} {W : Type w}

/-- A finite map from keys to values. -/
abbrev Map (K : Type u) (V : Type v) : Type (max u v) := AList (fun _ : K => V)

namespace Map

/-! ## Walking the entries -/

variable (f : K → V → Option W)

/-- What a walk makes of one entry. -/
def visit (entry : Sigma (fun _ : K => V)) : Option (Sigma (fun _ : K => W)) :=
  (f entry.1 entry.2).map (Sigma.mk entry.1)

theorem keys_filterMap_sublist :
    ∀ entries : List (Sigma fun _ : K => V),
      (entries.filterMap (visit f)).keys.Sublist entries.keys
  | [] => by simp
  | ⟨key, value⟩ :: entries => by
    cases hvalue : f key value with
    | none =>
      rw [List.filterMap_cons_none (by simp [visit, hvalue])]
      exact (keys_filterMap_sublist entries).cons _
    | some kept =>
      rw [List.filterMap_cons_some (b := ⟨key, kept⟩) (by simp [visit, hvalue])]
      exact (keys_filterMap_sublist entries).cons_cons _

/-- The map after a walk over its entries. -/
def filterMap (m : Map K V) : Map K W where
  entries := m.entries.filterMap (visit f)
  nodupKeys := (keys_filterMap_sublist f m.entries).nodup m.nodupKeys

/-- The map with every value changed. -/
def mapValues (f : V → W) (m : Map K V) : Map K W := m.filterMap fun _ value => some (f value)

variable (keep : K → V → Bool)

/-- The entries a predicate keeps. -/
def retain (m : Map K V) : Map K V :=
  m.filterMap fun key value => if keep key value then some value else none

variable [DecidableEq K]

theorem dlookup_filterMap (key : K) :
    ∀ entries : List (Sigma fun _ : K => V), entries.NodupKeys →
      (entries.filterMap (visit f)).dlookup key = (entries.dlookup key).bind (f key)
  | [], _ => rfl
  | ⟨other, value⟩ :: entries, hnodup => by
    obtain ⟨habsent, hrest⟩ := List.nodupKeys_cons.mp hnodup
    have ih := dlookup_filterMap key entries hrest
    by_cases hkey : key = other
    · subst hkey
      have hnone : entries.dlookup key = none := List.dlookup_eq_none.mpr habsent
      cases hvalue : f key value with
      | none =>
        rw [List.filterMap_cons_none (by simp [visit, hvalue]), ih, hnone]
        simp [hvalue]
      | some kept =>
        rw [List.filterMap_cons_some (b := ⟨key, kept⟩) (by simp [visit, hvalue]),
          List.dlookup_cons_eq]
        simp [hvalue]
    · rw [List.dlookup_cons_ne entries (⟨other, value⟩ : Sigma fun _ : K => V) hkey]
      cases hvalue : f other value with
      | none => rw [List.filterMap_cons_none (by simp [visit, hvalue]), ih]
      | some kept =>
        rw [List.filterMap_cons_some (b := ⟨other, kept⟩) (by simp [visit, hvalue]),
          List.dlookup_cons_ne _ (⟨other, kept⟩ : Sigma fun _ : K => W) hkey, ih]

/-- **A lookup after a walk is the lookup before it, filtered.** -/
@[simp] theorem lookup_filterMap (m : Map K V) (key : K) :
    (m.filterMap f).lookup key = (m.lookup key).bind (f key) :=
  dlookup_filterMap f key m.entries m.nodupKeys

@[simp] theorem lookup_mapValues (f : V → W) (m : Map K V) (key : K) :
    (m.mapValues f).lookup key = (m.lookup key).map f := by
  rw [mapValues, lookup_filterMap]
  cases m.lookup key <;> rfl

theorem mapValues_congr {f g : V → W} {m : Map K V}
    (h : ∀ key value, m.lookup key = some value → f value = g value) :
    m.mapValues f = m.mapValues g := by
  refine AList.ext (List.filterMap_congr fun entry hentry => ?_)
  simp only [visit, h entry.1 entry.2 (AList.mem_lookup_iff.mpr hentry)]

theorem lookup_retain (m : Map K V) (key : K) :
    (m.retain keep).lookup key = (m.lookup key).filter (keep key) := by
  rw [retain, lookup_filterMap]
  cases m.lookup key <;> simp [Option.filter]

variable {keep} {m : Map K V} {key : K} {value : V}

/-- An entry that a retain drops nothing of is found again. -/
theorem lookup_retain_of_keep (h : m.lookup key = some value) (hkeep : keep key value = true) :
    (m.retain keep).lookup key = some value := by
  rw [lookup_retain, h]
  exact Option.filter_some_pos hkeep

theorem lookup_of_retain
    (h : (m.retain keep).lookup key = some value) : m.lookup key = some value := by
  rw [lookup_retain] at h
  exact (Option.filter_eq_some_iff.mp h).1

theorem keep_of_lookup_retain
    (h : (m.retain keep).lookup key = some value) : keep key value = true := by
  rw [lookup_retain] at h
  exact (Option.filter_eq_some_iff.mp h).2

/-! ## One entry changes -/

/-- The map has as many entries after one is changed. -/
theorem length_insert {old value : V} (h : m.lookup key = some old) :
    (m.insert key value).entries.length = m.entries.length := by
  have hmem : key ∈ m.entries.keys := AList.mem_keys.mp (AList.lookup_isSome.mp (by rw [h]; rfl))
  obtain ⟨found, before, after, -, hentries, herase⟩ := List.exists_of_kerase hmem
  have hrest : (m.insert key value).entries = ⟨key, value⟩ :: (before ++ after) := by
    rw [← herase]
    rfl
  simp only [hrest, hentries, List.length_cons, List.length_append]
  omega

/-- What is found after an insertion. -/
theorem lookup_insert_eq {other : K} {value found : V}
    (h : (m.insert key value).lookup other = some found) :
    other = key ∧ found = value ∨ other ≠ key ∧ m.lookup other = some found := by
  by_cases hother : other = key
  · subst hother
    rw [AList.lookup_insert] at h
    exact .inl ⟨rfl, (Option.some.inj h).symm⟩
  · rw [AList.lookup_insert_ne hother] at h
    exact .inr ⟨hother, h⟩

theorem lookup_insert_ite (m : Map K V) (key other : K) (value : V) :
    (m.insert key value).lookup other = if other = key then some value else m.lookup other := by
  split
  · subst other
    exact AList.lookup_insert m
  · exact AList.lookup_insert_ne (by assumption)

/-- What is found after a deletion was there before. -/
theorem lookup_of_erase {other : K} {found : V}
    (h : (m.erase key).lookup other = some found) : m.lookup other = some found := by
  by_cases hother : other = key
  · subst hother
    rw [AList.lookup_erase] at h
    cases h
  · rwa [AList.lookup_erase_ne hother] at h

/-- A sum over the values. -/
def total (weight : V → ℕ) (m : Map K V) : ℕ := (m.entries.map fun entry => weight entry.2).sum

theorem total_erase (h : m.lookup key = some value)
    (weight : V → ℕ) : total weight m = weight value + total weight (m.erase key) := by
  have hmem : key ∈ m.entries.keys := AList.mem_keys.mp (AList.lookup_isSome.mp (by rw [h]; rfl))
  obtain ⟨found, before, after, -, hentries, herase⟩ := List.exists_of_kerase hmem
  have hfound : found = value := by
    have hlookup : ⟨key, found⟩ ∈ m.entries := by simp [hentries]
    exact Option.some.inj ((AList.mem_lookup_iff.mpr hlookup).symm.trans h)
  have hrest : (m.erase key).entries = before ++ after := herase
  simp only [total, hrest, hentries, List.map_append, List.map_cons, List.sum_append, List.sum_cons,
    hfound]
  omega

theorem total_erase_of_none (h : m.lookup key = none) (weight : V → ℕ) :
    total weight (m.erase key) = total weight m := by
  have hmem : key ∉ m.entries.keys := fun hmem => by
    have := AList.lookup_isSome.mpr (AList.mem_keys.mpr hmem)
    rw [h] at this
    cases this
  have hsame : (m.erase key).entries = m.entries := List.kerase_of_notMem_keys hmem
  rw [total, total, hsame]

/-- **An entry, if there is one, and the sum over the others** make up the sum. -/
theorem total_eq (m : Map K V) (key : K) (weight : V → ℕ) :
    total weight m = (m.lookup key).elim 0 weight + total weight (m.erase key) := by
  cases h : m.lookup key with
  | none => simp [total_erase_of_none h]
  | some value => exact total_erase h weight

theorem total_insert (m : Map K V) (key : K) (value : V) (weight : V → ℕ) :
    total weight (m.insert key value) = weight value + total weight (m.erase key) := by
  simp [total, AList.insert, AList.erase, List.kinsert]

theorem total_eq_zero {weight : V → ℕ}
    (h : ∀ key value, m.lookup key = some value → weight value = 0) : total weight m = 0 := by
  refine List.sum_eq_zero fun n hn => ?_
  obtain ⟨⟨key, value⟩, hentry, rfl⟩ := List.mem_map.mp hn
  exact h key value (AList.mem_lookup_iff.mpr hentry)

end Map

/-! ## Sets with one element -/

/-- The only element of a list. -/
def onlyOf {A : Type u} : List A → Option A
  | [a] => some a
  | _ => none

theorem onlyOf_perm {A : Type u} {first second : List A} (h : first.Perm second) :
    onlyOf first = onlyOf second := by
  match first, second, h.length_eq with
  | [], [], _ => rfl
  | [a], [b], _ => rw [List.singleton_perm_singleton.mp h]
  | _ :: _ :: _, _ :: _ :: _, _ => rfl

/-- The element of a set of size one. -/
def only {A : Type u} (s : Finset A) : Option A :=
  Quot.liftOn s.val onlyOf fun _ _ => onlyOf_perm

end Foundations
