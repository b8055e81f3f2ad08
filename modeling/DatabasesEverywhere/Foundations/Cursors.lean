import DatabasesEverywhere.Foundations.Bytes
import DatabasesEverywhere.Foundations.Saturating

/-!
# Foundations/Cursors — parsers that walk over a byte string

    input   ┌── before ──┬── front ──┬── rest ──┐
            0            offset      stop        length

A parser reads the input from its offset and moves the offset.  `Reads p front value` says that `p`
reads `value` off a field `front`, wherever the field stands and whatever follows.  A parser is
`Framed` if all that it ever returns it has read off such a field, so that fields can be cut out of
one input and put into another; it is `Final` if it asks for more bytes only where they can make a
difference.
-/

namespace Foundations

/-- A parser: the input, the offset, and the offset it stops at. -/
def Cursor (ε α : Type) : Type := Bytes → ℕ → Except ε (α × ℕ)

namespace Cursor

variable {ε α β : Type}

/-- The next parser goes on where the first one stopped. -/
def goOn (next : α → Cursor ε β) (input : Bytes) : Except ε (α × ℕ) → Except ε (β × ℕ)
  | .ok (a, stop) => next a input stop
  | .error e => .error e

instance : Monad (Cursor ε) where
  pure a := fun _ offset => .ok (a, offset)
  bind p next := fun input offset => goOn next input (p input offset)

/-! ## Primitives -/

def fail (e : ε) : Cursor ε α := fun _ _ => .error e

/-- The whole input. -/
def input : Cursor ε Bytes := fun input offset => .ok (input, offset)

def offset : Cursor ε ℕ := fun _ offset => .ok (offset, offset)

/-- `offset += count`. -/
def skip (count : ℕ) : Cursor ε Unit := fun _ offset => .ok ((), offset + count)

/-- `get(offset)`, and one step forward. -/
def nextByte (short : ε) : Cursor ε UInt8 := fun input offset =>
  match input[offset]? with
  | some byte => .ok (byte, offset + 1)
  | none => .error short

/-- `get(offset..end)` with the end in range of a `usize`. -/
def takeBytes (overflow short : ε) (len : ℕ) : Cursor ε Bytes := fun input offset =>
  if usizeMax < offset + len then .error overflow
  else if input.length < offset + len then .error short
  else .ok ((input.drop offset).take len, offset + len)

/-- A reader that sees only what is ahead, and says how many bytes it has used. -/
def ahead (read : Bytes → Except ε (α × ℕ)) : Cursor ε α := fun input offset =>
  (read (input.drop offset)).map fun result => (result.1, offset + result.2)

/-- From the start, without the offset it stops at. -/
def parse (p : Cursor ε α) (input : Bytes) : Except ε α := (p input 0).map Prod.fst

variable {p : Cursor ε α} {input : Bytes}

theorem parse_eq_ok {value : α} :
    p.parse input = .ok value ↔ ∃ stop, p input 0 = .ok (value, stop) := by
  rw [parse]
  cases p input 0 with
  | error e => simp [Except.map]
  | ok result => simp [Except.map, Prod.ext_iff]

theorem pure_apply (a : α) (input : Bytes) (offset : ℕ) :
    (pure a : Cursor ε α) input offset = .ok (a, offset) :=
  rfl

variable {next : α → Cursor ε β} {a : α} {offset stop : ℕ}

theorem bind_apply (h : p input offset = .ok (a, stop)) :
    (p >>= next) input offset = next a input stop := by
  change goOn next input (p input offset) = _
  rw [h]
  rfl

theorem bind_eq_ok {b : β} : (p >>= next) input offset = .ok (b, stop) ↔
      ∃ a middle, p input offset = .ok (a, middle) ∧ next a input middle = .ok (b, stop) := by
  constructor
  · intro h
    change goOn next input (p input offset) = _ at h
    cases hp : p input offset with
    | error e =>
      rw [hp] at h
      cases h
    | ok result =>
      rw [hp] at h
      exact ⟨result.1, result.2, rfl, h⟩
  · rintro ⟨a, middle, hp, hnext⟩
    rw [bind_apply hp, hnext]

theorem input_bind {next : Bytes → Cursor ε β} (input : Bytes) (offset : ℕ) :
    (Cursor.input >>= next) input offset = next input input offset :=
  rfl

theorem offset_bind {next : ℕ → Cursor ε β} (input : Bytes) (offset : ℕ) :
    (Cursor.offset >>= next) input offset = next offset input offset :=
  rfl

theorem skip_bind {next : Unit → Cursor ε β} (count : ℕ) (input : Bytes) (offset : ℕ) :
    (skip count >>= next) input offset = next () input (offset + count) :=
  rfl

/-! ## Fields -/

/-- An input of a program: its length is a `usize`. -/
abbrev inMemory (length : ℕ) : Prop := length ≤ usizeMax

section Fields

variable {fits : ℕ → Prop}

/-- The parser reads the value off the field, wherever it stands in an input of a length that
fits. -/
def Reads (fits : ℕ → Prop) (p : Cursor ε α) (front : Bytes) (value : α) : Prop :=
  ∀ ⦃input : Bytes⦄ ⦃offset : ℕ⦄ ⦃rest : Bytes⦄, fits input.length → offset ≤ input.length →
    input.drop offset = front ++ rest → p input offset = .ok (value, offset + front.length)

/-- Everything the parser returns it has read off a field. -/
def Framed (fits : ℕ → Prop) (p : Cursor ε α) : Prop :=
  ∀ ⦃input : Bytes⦄ ⦃offset : ℕ⦄ ⦃value : α⦄ ⦃stop : ℕ⦄, offset ≤ input.length →
    p input offset = .ok (value, stop) →
    ∃ front rest, input.drop offset = front ++ rest ∧ stop = offset + front.length ∧
      p.Reads fits front value

variable {front rest : Bytes}

/-- Behind a field stands what follows it. -/
theorem drop_field (hle : offset ≤ input.length) (h : input.drop offset = front ++ rest) :
    input.drop (offset + front.length) = rest ∧ offset + front.length ≤ input.length := by
  constructor
  · rw [← List.drop_drop, h, List.drop_left]
  · have hlength := congrArg List.length h
    rw [List.length_drop, List.length_append] at hlength
    omega

/-- The same for a field of known length. -/
theorem drop_count {count : ℕ} (hle : offset ≤ input.length)
    (h : input.drop offset = front ++ rest) (hcount : front.length = count) :
    input.drop (offset + count) = rest ∧ offset + count ≤ input.length :=
  hcount ▸ drop_field hle h

theorem reads_pure (a : α) : (pure a : Cursor ε α).Reads fits [] a :=
  fun _ _ _ _ _ _ => rfl

/-- **Fields one after the other.** -/
theorem Reads.bind {first second : Bytes} {b : β} (h : p.Reads fits first a)
    (hnext : (next a).Reads fits second b) : (p >>= next).Reads fits (first ++ second) b := by
  intro input offset rest hsize hle hdrop
  rw [List.append_assoc] at hdrop
  obtain ⟨hbehind, hle'⟩ := drop_field hle hdrop
  rw [bind_apply (h hsize hle hdrop), hnext hsize hle' hbehind, List.length_append, Nat.add_assoc]

/-- A step that reads nothing more. -/
theorem Reads.bind_last {b : β} (h : p.Reads fits front a) (hnext : (next a).Reads fits [] b) :
    (p >>= next).Reads fits front b := by
  have hbind := h.bind hnext
  rwa [List.append_nil] at hbind

theorem framed_fail (e : ε) : (fail e : Cursor ε α).Framed fits := by
  intro input offset value stop _ h
  cases h

theorem framed_pure (a : α) : (pure a : Cursor ε α).Framed fits := by
  intro input offset value stop _ h
  obtain ⟨rfl, rfl⟩ := Prod.mk.inj (Except.ok.inj h)
  exact ⟨[], input.drop offset, rfl, rfl, reads_pure a⟩

theorem Framed.bind (h : p.Framed fits) (hnext : ∀ a, (next a).Framed fits) :
    (p >>= next).Framed fits := by
  intro input offset value stop hle hok
  obtain ⟨a, middle, hp, hok⟩ := bind_eq_ok.mp hok
  obtain ⟨first, rest, hdrop, rfl, hreads⟩ := h hle hp
  obtain ⟨hbehind, hle'⟩ := drop_field hle hdrop
  obtain ⟨second, rest', hdrop', rfl, hreads'⟩ := hnext a hle' hok
  refine ⟨first ++ second, rest', ?_, ?_, hreads.bind hreads'⟩
  · rw [hdrop, ← hbehind, hdrop', List.append_assoc]
  · rw [List.length_append, Nat.add_assoc]

theorem framed_ite {q : Cursor ε α} (condition : Prop) [Decidable condition]
    (hp : p.Framed fits) (hq : q.Framed fits) : (if condition then p else q).Framed fits := by
  split
  · exact hp
  · exact hq

theorem reads_nextByte (short : ε) (byte : UInt8) : (nextByte short).Reads fits [byte] byte := by
  intro input offset rest _ _ hdrop
  have hget : input[offset]? = some byte := by
    rw [← List.head?_drop, hdrop]
    rfl
  simp only [nextByte, hget, List.length_singleton]

theorem framed_nextByte (short : ε) : (nextByte short).Framed fits := by
  intro input offset value stop _ h
  cases hget : input[offset]? with
  | none => simp [nextByte, hget] at h
  | some byte =>
    simp only [nextByte, hget] at h
    obtain ⟨rfl, rfl⟩ := Prod.mk.inj (Except.ok.inj h)
    obtain ⟨hlt, hbyte⟩ := List.getElem?_eq_some_iff.mp hget
    refine ⟨[byte], input.drop (offset + 1), ?_, rfl, reads_nextByte short byte⟩
    rw [List.drop_eq_getElem_cons hlt, hbyte]
    rfl

theorem reads_takeBytes (overflow short : ε) (front : Bytes) :
    (takeBytes overflow short front.length).Reads inMemory front front := by
  intro input offset rest hsize hle hdrop
  have hshort := (drop_field hle hdrop).2
  rw [takeBytes, if_neg (by omega), if_neg (by omega), hdrop, List.take_left]

theorem length_takeBytes {overflow short : ε} {len : ℕ} {value : Bytes}
    (h : takeBytes overflow short len input offset = .ok (value, stop)) : value.length = len := by
  rw [takeBytes] at h
  split at h
  · cases h
  split at h
  · cases h
  · obtain ⟨rfl, rfl⟩ := Prod.mk.inj (Except.ok.inj h)
    rw [List.length_take, List.length_drop]
    omega

theorem framed_takeBytes (overflow short : ε) (len : ℕ) :
    (takeBytes overflow short len).Framed inMemory := by
  intro input offset value stop _ h
  have hlength := length_takeBytes h
  rw [takeBytes] at h
  split at h
  · cases h
  split at h
  · cases h
  obtain ⟨rfl, rfl⟩ := Prod.mk.inj (Except.ok.inj h)
  refine ⟨(input.drop offset).take len, (input.drop offset).drop len,
    (List.take_append_drop _ _).symm, by rw [hlength], ?_⟩
  have hreads := reads_takeBytes overflow short ((input.drop offset).take len)
  rwa [hlength] at hreads

/-- What a reader makes of `front` whatever follows, it reads off that field. -/
theorem reads_ahead {read : Bytes → Except ε (α × ℕ)} {value : α}
    (h : ∀ tail, read (front ++ tail) = .ok (value, front.length)) :
    (ahead read).Reads fits front value := by
  intro input offset rest _ _ hdrop
  rw [ahead, hdrop, h]
  rfl

theorem framed_ahead {read : Bytes → Except ε (α × ℕ)}
    (h : ∀ bytes value count, read bytes = .ok (value, count) → ∃ front rest,
      bytes = front ++ rest ∧ count = front.length ∧
        ∀ tail, read (front ++ tail) = .ok (value, front.length)) :
    (ahead read).Framed fits := by
  intro input offset value stop _ hok
  rw [ahead] at hok
  cases hread : read (input.drop offset) with
  | error e =>
    rw [hread] at hok
    cases hok
  | ok result =>
    rw [hread] at hok
    obtain ⟨front, rest, hfront, hcount, hagain⟩ := h _ _ _ hread
    cases hok
    exact ⟨front, rest, hfront, congrArg (offset + ·) hcount, reads_ahead hagain⟩

end Fields

/-! ## More input -/

section More

variable {incomplete : ε}

/-- The errors of the parser, but for the one that asks for more bytes, stay when more come in. -/
def Final (incomplete : ε) (p : Cursor ε α) : Prop :=
  ∀ ⦃input : Bytes⦄ ⦃offset : ℕ⦄ ⦃error : ε⦄, offset ≤ input.length →
    p input offset = .error error → error ≠ incomplete →
    ∀ more, p (input ++ more) offset = .error error

theorem final_pure (a : α) : (pure a : Cursor ε α).Final incomplete := by
  intro input offset error _ h
  cases h

theorem final_fail (e : ε) : (fail e : Cursor ε α).Final incomplete :=
  fun _ _ _ _ h _ _ => h

theorem final_ite {q : Cursor ε α} (condition : Prop) [Decidable condition]
    (hp : p.Final incomplete) (hq : q.Final incomplete) :
    (if condition then p else q).Final incomplete := by
  split
  · exact hp
  · exact hq

/-- What was read is read again when more bytes have come in. -/
theorem Framed.append (h : p.Framed fun _ => True) (hle : offset ≤ input.length)
    (hok : p input offset = .ok (a, stop)) (more : Bytes) :
    p (input ++ more) offset = .ok (a, stop) ∧ stop ≤ input.length := by
  obtain ⟨front, rest, hdrop, rfl, hreads⟩ := h hle hok
  refine ⟨@hreads _ _ (rest ++ more) trivial (by rw [List.length_append]; omega) ?_,
    (drop_field hle hdrop).2⟩
  rw [List.drop_append_of_le_length hle, hdrop, List.append_assoc]

theorem Final.bind (h : p.Final incomplete) (hframed : p.Framed fun _ => True)
    (hnext : ∀ a, (next a).Final incomplete) : (p >>= next).Final incomplete := by
  intro input offset error hle herror hfinal more
  cases hp : p input offset with
  | error e =>
    change goOn next _ (p _ _) = _ at herror ⊢
    rw [hp] at herror
    cases herror
    rw [h hle hp hfinal]
    rfl
  | ok result =>
    obtain ⟨a, stop⟩ := result
    obtain ⟨hagain, hstop⟩ := hframed.append hle hp more
    rw [bind_apply hp] at herror
    rw [bind_apply hagain]
    exact hnext a hstop herror hfinal more

theorem final_nextByte (incomplete : ε) : (nextByte incomplete).Final incomplete := by
  intro input offset error _ h hfinal
  rw [nextByte] at h
  split at h
  · cases h
  · exact absurd (Except.error.inj h).symm hfinal

theorem final_ahead {read : Bytes → Except ε (α × ℕ)}
    (h : ∀ bytes error, read bytes = .error error → error ≠ incomplete →
      ∀ more, read (bytes ++ more) = .error error) : (ahead read).Final incomplete := by
  intro input offset error hle herror hfinal more
  rw [ahead] at herror ⊢
  rw [List.drop_append_of_le_length hle]
  cases hread : read (input.drop offset) with
  | error e =>
    rw [hread] at herror
    cases herror
    rw [h _ _ hread hfinal]
    rfl
  | ok result =>
    rw [hread] at herror
    cases herror

end More

/-! ## Indices

An index out of range stops the program. -/

end Cursor

/-- How a parser stops: with an error of its own, or at an index that is out of range. -/
inductive Halt (ε : Type)
  | error (e : ε)
  | outOfRange
  deriving DecidableEq

namespace Cursor

/-- An error of the parser. -/
def raise (e : ε) : Cursor (Halt ε) α := fail (.error e)

/-- `bytes[i]`. -/
def index (bytes : Bytes) (i : ℕ) : Cursor (Halt ε) UInt8 :=
  match bytes[i]? with
  | some byte => pure byte
  | none => fail .outOfRange

/-- `&bytes[..len]`. -/
def sliceTo (bytes : Bytes) (len : ℕ) : Cursor (Halt ε) Bytes :=
  if len ≤ bytes.length then pure (bytes.take len) else fail .outOfRange

/-- No index of the parser is out of range on the input. -/
def InRange (p : Cursor (Halt ε) α) (input : Bytes) : Prop :=
  ∀ offset, p input offset ≠ .error .outOfRange

section Range

variable {bytes : Bytes}

variable {p : Cursor (Halt ε) α}

theorem InRange.parse (h : p.InRange bytes) : p.parse bytes ≠ .error .outOfRange := by
  intro hout
  rw [Cursor.parse] at hout
  cases hp : p bytes 0 with
  | error e =>
    rw [hp] at hout
    obtain rfl := Except.error.inj hout
    exact h 0 hp
  | ok result =>
    rw [hp] at hout
    cases hout

theorem inRange_pure (a : α) : (pure a : Cursor (Halt ε) α).InRange bytes := by
  intro offset h
  cases h

theorem inRange_raise (e : ε) : (raise e : Cursor (Halt ε) α).InRange bytes := by
  intro offset h
  cases h

theorem inRange_offset : (offset : Cursor (Halt ε) ℕ).InRange bytes := by
  intro offset h
  cases h

theorem inRange_skip (count : ℕ) : (skip count : Cursor (Halt ε) Unit).InRange bytes := by
  intro offset h
  cases h

/-- **The rule for sequences**: the second parser is looked at for the values of the first. -/
theorem InRange.bind {next : α → Cursor (Halt ε) β} (h : p.InRange bytes)
    (hnext : ∀ a offset stop, p bytes offset = .ok (a, stop) → (next a).InRange bytes) :
    (p >>= next).InRange bytes := by
  intro offset hout
  cases hp : p bytes offset with
  | error e =>
    change goOn next bytes (p bytes offset) = _ at hout
    rw [hp] at hout
    obtain rfl := Except.error.inj hout
    exact h offset hp
  | ok result =>
    obtain ⟨a, stop⟩ := result
    rw [bind_apply hp] at hout
    exact hnext a offset stop hp stop hout

theorem inRange_input_bind {next : Bytes → Cursor (Halt ε) β} (h : (next bytes).InRange bytes) :
    (input >>= next).InRange bytes :=
  fun offset => h offset

theorem inRange_ite {q : Cursor (Halt ε) α} (condition : Prop) [Decidable condition]
    (hp : condition → p.InRange bytes) (hq : ¬ condition → q.InRange bytes) :
    (if condition then p else q).InRange bytes := by
  split
  · next h => exact hp h
  · next h => exact hq h

theorem inRange_nextByte (e : ε) : (nextByte (.error e)).InRange bytes := by
  intro offset h
  rw [nextByte] at h
  split at h
  · cases h
  · cases h

theorem inRange_takeBytes (e e' : ε) (len : ℕ) :
    (takeBytes (.error e) (.error e') len).InRange bytes := by
  intro offset h
  rw [takeBytes] at h
  split at h
  · cases h
  · split at h
    · cases h
    · cases h

variable {other : Bytes}

theorem inRange_index {i : ℕ} (h : i < other.length) :
    (index other i : Cursor (Halt ε) UInt8).InRange bytes := by
  rw [index, List.getElem?_eq_getElem h]
  exact inRange_pure _

theorem inRange_sliceTo {len : ℕ} (h : len ≤ other.length) :
    (sliceTo other len : Cursor (Halt ε) Bytes).InRange bytes := by
  rw [sliceTo, if_pos h]
  exact inRange_pure _

end Range

end Cursor

end Foundations
