import DatabasesEverywhere.MysqlSql.Scanner

/-!
# MysqlSql/Bounded — a dump that arrives in pieces

`BoundedInput` fills a buffer from a reader and keeps the bytes it has peeked at in a ring.

    lookahead (ring)   buffer        reader
    ┌───────────────┐ ┌───────────┐ ┌────────────────────────┐
    │ peeked bytes  │ │ delivered │ │ still to be delivered  │      left = all three
    └───────────────┘ └───────────┘ └────────────────────────┘

The scanner works on what is `available` at once, which depends on how the reader cuts the bytes.
`Follows` compares a computation over such an input with one over the bytes that are left, and its
rules are the steps in which the cuts no longer show.
-/

open Foundations

namespace DatabasesEverywhere.MysqlSql

/-! ## The input -/

def streamBufferBytes : ℕ := 64 * 1024

/-- The capacity of the ring: no byte further ahead is ever peeked at. -/
def lookaheadCapacity : ℕ := 4

/-- A reader, and how it cuts: a read delivers one byte more than the next cut says, and all that is
asked for when the cuts have run out. -/
structure ByteReader where
  bytes : Bytes
  cuts : List ℕ := []

namespace ByteReader

def chunk (reader : ByteReader) (requested : ℕ) : ℕ :=
  match reader.cuts with
  | [] => requested
  | cut :: _ => min (cut + 1) requested

def read (reader : ByteReader) (requested : ℕ) : Bytes × ByteReader :=
  (reader.bytes.take (reader.chunk requested),
    { bytes := reader.bytes.drop (reader.chunk requested), cuts := reader.cuts.tail })

theorem chunk_pos {reader : ByteReader} {requested : ℕ} (h : 0 < requested) :
    0 < reader.chunk requested := by
  unfold chunk
  split
  · exact h
  · exact lt_min (Nat.succ_pos _) h

end ByteReader

/-- `BoundedInput`: `buffer` is the part of the buffer between `start` and `end`, and `head` is
where the ring of the lookahead starts. -/
structure BoundedInput where
  reader : ByteReader
  buffer : Bytes := []
  lookahead : Bytes := []
  head : ℕ := 0
  bytesRead : ℕ := 0
  maxBytes : ℕ
  head_lt : head < lookaheadCapacity := by decide
  bounded : bytesRead ≤ maxBytes := by omega

/-- The errors of a rewrite over a `BoundedInput`; `exhausted` stands for a loop that does not
end. -/
inductive BoundedError
  | inputLimit (limit : ℕ)
  | rewrite (error : MysqlSqlRewriteError)
  | exhausted
  deriving DecidableEq

namespace BoundedInput

def new (reader : ByteReader) (maxBytes : ℕ) : BoundedInput := { reader, maxBytes }

variable (input : BoundedInput)

/-- The bytes that have not been consumed. -/
def left : Bytes := input.lookahead ++ (input.buffer ++ input.reader.bytes)

/-- The bytes of the whole dump. -/
def total : ℕ := input.bytesRead + input.reader.bytes.length

/-- How many bytes `fill_buffer` asks for: one more than may still come, to notice it. -/
def requested : ℕ :=
  let remaining := input.maxBytes - input.bytesRead
  if streamBufferBytes ≤ remaining then streamBufferBytes else min (remaining + 1) streamBufferBytes

def fillBuffer : Except BoundedError BoundedInput :=
  if input.buffer ≠ [] then .ok input
  else
    let read := input.reader.read input.requested
    if h : read.1.length ≤ input.maxBytes - input.bytesRead then
      .ok { input with
        reader := read.2
        buffer := read.1
        bytesRead := input.bytesRead + read.1.length
        bounded := by have := input.bounded; omega }
    else .error (.inputLimit input.maxBytes)

/-- What `available` returns: the ring up to its end, or the buffer. -/
def ready : Bytes :=
  if input.lookahead ≠ [] then input.lookahead.take (lookaheadCapacity - input.head)
  else input.buffer

/-- Bytes are popped off the ring. -/
def pop (length : ℕ) : BoundedInput :=
  { input with
    lookahead := input.lookahead.drop length
    head := (input.head + length) % lookaheadCapacity
    head_lt := Nat.mod_lt _ (by decide) }

end BoundedInput

/-- A computation that reads from a `BoundedInput`. -/
abbrev Reading (α : Type) : Type := StateT BoundedInput (Except BoundedError) α

namespace Reading

variable {α β : Type}

/-- A computation that does not read. -/
def lift (result : Rewriting α) : Reading α := fun input =>
  match result with
  | .ok a => .ok (a, input)
  | .error error => .error (.rewrite error)

def fail (error : MysqlSqlRewriteError) : Reading α := lift (.error error)

def available : Reading Bytes := fun input =>
  if input.lookahead ≠ [] then .ok (input.ready, input)
  else do
    let input ← input.fillBuffer
    return (input.ready, input)

def consume (length : ℕ) : Reading Unit := fun input =>
  if input.lookahead ≠ [] then .ok ((), input.pop length)
  else .ok ((), { input with buffer := input.buffer.drop length })

def nextBufferByte : Reading (Option UInt8) := fun input => do
  let input ← input.fillBuffer
  match input.buffer with
  | [] => return (none, input)
  | byte :: buffer => return (some byte, { input with buffer })

def nextByte : Reading (Option UInt8) := fun input =>
  match input.lookahead with
  | [] => nextBufferByte input
  | byte :: _ => .ok (some byte, input.pop 1)

/-- The turn of the loop of `peek_nth_byte`: the next byte of the buffer moves into the ring. -/
def moveByte : Reading Bool := fun input => do
  match ← nextBufferByte input with
  | (none, input) => return (false, input)
  | (some byte, input) => return (true, { input with lookahead := input.lookahead ++ [byte] })

/-- Bytes are moved into the ring, as long as there are any. -/
def fillLookahead : ℕ → Reading Bool
  | 0 => pure true
  | missing + 1 => do if ← moveByte then fillLookahead missing else return false

def peekNthByte (index : ℕ) : Reading (Option UInt8) := do
  let missing := index + 1 - (← get).lookahead.length
  if ← fillLookahead missing then return (← get).lookahead[index]? else return none

def peekByte : Reading (Option UInt8) := peekNthByte 0

/-- A loop of the scanner, with fuel for one turn per byte. -/
def forever (step : β → Reading (β ⊕ α)) (state : β) : Reading α := fun input =>
  iterate
    (fun state => do
      match ← step state.1 state.2 with
      | (.inl next, input) => return .inl (next, input)
      | (.inr result, input) => return .inr (result, input))
    .exhausted (input.left.length + 1) (state, input)

end Reading

/-! ## Consuming -/

/-- What a computation does to its input: it consumes bytes at the front. -/
structure Consumes (input input' : BoundedInput) : Prop where
  maxBytes : input'.maxBytes = input.maxBytes
  total : input'.total = input.total
  left : input'.left <:+ input.left

variable {input input' : BoundedInput}

namespace Consumes

variable {input'' : BoundedInput}

theorem refl (input : BoundedInput) : Consumes input input := ⟨rfl, rfl, List.suffix_rfl⟩

theorem trans (h : Consumes input input') (h' : Consumes input' input'') : Consumes input input'' :=
  ⟨h'.maxBytes.trans h.maxBytes, h'.total.trans h.total, h'.left.trans h.left⟩

theorem length_le (h : Consumes input input') : input'.left.length ≤ input.left.length :=
  h.left.length_le

end Consumes

variable {length : ℕ}

namespace BoundedInput

theorem requested_pos : 0 < input.requested := by
  simp only [requested]
  split <;> simp [streamBufferBytes]

/-- **A buffer is filled from the front of the reader**, unless the dump exceeds the limit. -/
theorem fillBuffer_spec :
    (∃ input', input.fillBuffer = .ok input' ∧ input'.maxBytes = input.maxBytes ∧
      input'.total = input.total ∧ input'.left = input.left ∧
      input'.lookahead = input.lookahead ∧
      (input'.buffer = [] → input'.reader.bytes = [])) ∨
    input.fillBuffer = .error (.inputLimit input.maxBytes) ∧ input.maxBytes < input.total := by
  unfold fillBuffer
  by_cases hbuffer : input.buffer = []
  swap
  · rw [if_pos hbuffer]
    exact .inl ⟨input, rfl, rfl, rfl, rfl, rfl, fun hempty => absurd hempty hbuffer⟩
  rw [if_neg (not_not_intro hbuffer)]
  have hsplit := List.take_append_drop (input.reader.chunk input.requested) input.reader.bytes
  by_cases hlength : (input.reader.read input.requested).1.length ≤
      input.maxBytes - input.bytesRead
  · refine .inl ⟨_, dif_pos hlength, rfl, ?_, ?_, rfl, fun hempty => ?_⟩
    · have hlengths := congrArg List.length hsplit
      rw [List.length_append] at hlengths
      simp only [total, ByteReader.read]
      omega
    · simp only [left, ByteReader.read, hsplit, hbuffer, List.nil_append]
    · -- nothing came although something was asked for
      rcases List.take_eq_nil_iff.mp hempty with hchunk | hbytes
      · exact absurd hchunk (ByteReader.chunk_pos requested_pos).ne'
      · simp [ByteReader.read, hbytes]
  · refine .inr ⟨dif_neg hlength, ?_⟩
    have hread : (input.reader.read input.requested).1.length ≤ input.reader.bytes.length :=
      List.length_take_le' _ _
    simp only [total]
    omega

/-- The next byte of the buffer comes behind the bytes that have been peeked at. -/
theorem nextBufferByte_spec :
    (∃ byte input', Reading.nextBufferByte input = .ok (byte, input') ∧
      input'.maxBytes = input.maxBytes ∧ input'.total = input.total ∧
      input'.lookahead = input.lookahead ∧
      input.buffer ++ input.reader.bytes = byte.toList ++ (input'.buffer ++ input'.reader.bytes) ∧
      (byte = none → input'.buffer ++ input'.reader.bytes = [])) ∨
    Reading.nextBufferByte input = .error (.inputLimit input.maxBytes) ∧
      input.maxBytes < input.total := by
  unfold Reading.nextBufferByte
  rcases @fillBuffer_spec input with
    ⟨filled, hfill, hmax, htotal, hleft, hlookahead, hempty⟩ | ⟨hfill, hexceeded⟩
  swap
  · rw [hfill]
    exact .inr ⟨rfl, hexceeded⟩
  rw [hfill, ok_bind]
  have hbytes : input.buffer ++ input.reader.bytes = filled.buffer ++ filled.reader.bytes := by
    rw [left, left, hlookahead] at hleft
    exact (List.append_cancel_left hleft).symm
  left
  cases hbuffer : filled.buffer with
  | nil =>
    refine ⟨none, filled, rfl, hmax, htotal, hlookahead, hbytes, fun _ => ?_⟩
    rw [hbuffer, hempty hbuffer, List.append_nil]
  | cons byte buffer =>
    refine ⟨some byte, { filled with buffer }, rfl, hmax, htotal, hlookahead, ?_, ?_⟩
    · rw [hbytes, hbuffer]
      rfl
    · intro hnone
      cases hnone

theorem ready_prefix : input.ready <+: input.left := by
  unfold ready left
  split
  · exact (List.take_prefix _ _).trans (List.prefix_append _ _)
  next hlookahead =>
    rw [not_not.mp hlookahead, List.nil_append]
    exact List.prefix_append _ _

theorem left_pop (h : length ≤ input.lookahead.length) :
    (input.pop length).left = input.left.drop length := by
  rw [left, left, List.drop_append_of_le_length h]
  rfl

end BoundedInput

/-! ## Computations that follow the bytes -/

/-- A result is fine: a success has consumed bytes and meets `post`, an error is as `refused` says,
the limit is exceeded only if the dump is too long, and every loop ends. -/
def Settles {α : Type} (input : BoundedInput) (post : α → BoundedInput → Prop)
    (refused : MysqlSqlRewriteError → Prop) : Except BoundedError (α × BoundedInput) → Prop
  | .ok (a, input') => Consumes input input' ∧ post a input'
  | .error (.rewrite error) => refused error
  | .error (.inputLimit limit) => limit = input.maxBytes ∧ input.maxBytes < input.total
  | .error .exhausted => False

/-- A computation ends as `post` and `refused` say. -/
def Meets {α : Type} (computation : Reading α) (input : BoundedInput)
    (post : α → BoundedInput → Prop) (refused : MysqlSqlRewriteError → Prop) : Prop :=
  Settles input post refused (computation input)

/-- A computation simulates another one over the bytes that are left, whose result is `expected`:
it fails as that one does, and `agrees` compares the successes. -/
def Simulates {α γ : Type} (agrees : Rewriting γ → α → BoundedInput → Prop)
    (computation : Reading α) (input : BoundedInput) (expected : Rewriting γ) :
    Prop :=
  Meets computation input (agrees expected) fun error => expected = .error error

/-- The expected result; `view` puts a result and the bytes that are left together. -/
def Returns {α γ : Type} (view : α → Bytes → γ) (expected : Rewriting γ) (a : α)
    (input' : BoundedInput) : Prop :=
  expected = .ok (view a input'.left)

/-- A computation does what another one does with the bytes that are left. -/
abbrev Follows {α γ : Type} (view : α → Bytes → γ) : Reading α → BoundedInput →
    Rewriting γ → Prop :=
  Simulates (Returns view)

/-- A turn of a loop, which starts with `length` bytes: fewer are left when it goes on, and the loop
over the bytes goes on from there. -/
def Turns {α β γ : Type} (view : α → Bytes → γ)
    (loop : β → Bytes → Rewriting γ) (length : ℕ)
    (expected : Rewriting γ) : β ⊕ α → BoundedInput → Prop
  | .inl state, input' => input'.left.length < length ∧ expected = loop state input'.left
  | .inr a, input' => expected = .ok (view a input'.left)

/-- A turn of a loop whose counterpart needs fuel for the bytes. -/
def TurnsWithin {α β γ : Type} (view : α → Bytes → γ)
    (loop : ℕ → β → Bytes → Rewriting γ) (length : ℕ)
    (expected : Rewriting γ) : β ⊕ α → BoundedInput → Prop
  | .inl state, input' => input'.left.length < length ∧
      ∃ fuel, input'.left.length < fuel ∧ expected = loop fuel state input'.left
  | .inr a, input' => expected = .ok (view a input'.left)

/-- A turn of a loop that takes one step of its counterpart. -/
def Steps {α β γ σ : Type} (state : β → Bytes → σ) (view : α → Bytes → γ) (length : ℕ)
    (expected : Rewriting (σ ⊕ γ)) : β ⊕ α → BoundedInput → Prop
  | .inl next, input' => input'.left.length < length ∧
      expected = .ok (.inl (state next input'.left))
  | .inr a, input' => expected = .ok (.inr (view a input'.left))

variable {refused : MysqlSqlRewriteError → Prop}

theorem Settles.of_consumes {α : Type} {post : α → BoundedInput → Prop}
    {result : Except BoundedError (α × BoundedInput)} (hconsumes : Consumes input input')
    (h : Settles input' post refused result) : Settles input post refused result := by
  cases result with
  | error error =>
    cases error with
    | rewrite error => exact h
    | inputLimit limit =>
      obtain ⟨hlimit, hexceeded⟩ := h
      rw [hconsumes.maxBytes, hconsumes.total] at hexceeded
      exact ⟨hlimit.trans hconsumes.maxBytes, hexceeded⟩
    | exhausted => exact h
  | ok result => exact ⟨hconsumes.trans h.1, h.2⟩

namespace Meets

variable {α β : Type}

theorem pure {a : α} {post : α → BoundedInput → Prop} (h : post a input) :
    Meets (pure a) input post refused :=
  ⟨Consumes.refl _, h⟩

variable {computation : Reading α}

theorem bind {next : α → Reading β} {post : β → BoundedInput → Prop}
    (h : Meets computation input
      (fun a input' => Consumes input input' → Meets (next a) input' post refused) refused) :
    Meets (computation >>= next) input post refused := by
  change Settles input post refused (computation input >>= fun result => next result.1 result.2)
  unfold Meets at h
  cases hresult : computation input with
  | error error =>
    rw [hresult] at h
    cases error with
    | rewrite error => exact h
    | inputLimit limit => exact h
    | exhausted => exact h
  | ok result =>
    rw [hresult] at h
    obtain ⟨hconsumes, hnext⟩ := h
    exact (hnext hconsumes).of_consumes hconsumes

theorem mono {post post' : α → BoundedInput → Prop} {refused' : MysqlSqlRewriteError → Prop}
    (h : Meets computation input post refused)
    (hpost : ∀ a input', Consumes input input' → post a input' → post' a input')
    (hrefused : ∀ error, refused error → refused' error) :
    Meets computation input post' refused' := by
  unfold Meets at h ⊢
  cases hresult : computation input with
  | error error =>
    rw [hresult] at h
    cases error with
    | rewrite error => exact hrefused error h
    | inputLimit limit => exact h
    | exhausted => exact h
  | ok result =>
    rw [hresult] at h
    exact ⟨h.1, hpost _ _ h.1 h.2⟩

theorem lift {result : Rewriting α} {post : α → BoundedInput → Prop}
    (hok : ∀ a, result = .ok a → post a input)
    (herror : ∀ error, result = .error error → refused error) :
    Meets (Reading.lift result) input post refused := by
  cases result with
  | error error => exact herror error rfl
  | ok a => exact ⟨Consumes.refl _, hok a rfl⟩

variable {post : Option UInt8 → BoundedInput → Prop}

/-- **The next byte is the first that is left.** -/
theorem nextByte
    (hnone : ∀ input', Consumes input input' → input.left = [] → input'.left = [] →
      post none input')
    (hsome : ∀ byte input', Consumes input input' → input.left = byte :: input'.left →
      post (some byte) input') :
    Meets Reading.nextByte input post refused := by
  unfold Meets Reading.nextByte
  cases hlookahead : input.lookahead with
  | nil =>
    rcases @BoundedInput.nextBufferByte_spec input with
      ⟨byte, input', hnext, hmax, htotal, hkept, hbytes, hlast⟩ | ⟨hnext, hexceeded⟩
    swap
    · simp only [hnext]
      exact ⟨rfl, hexceeded⟩
    have hleft : input.left = byte.toList ++ input'.left := by
      rw [BoundedInput.left, BoundedInput.left, hkept, hlookahead, hbytes]
      rfl
    have hconsumes : Consumes input input' := ⟨hmax, htotal, hleft ▸ List.suffix_append _ _⟩
    simp only [hnext]
    cases byte with
    | none =>
      have hempty : input'.left = [] := by
        rw [BoundedInput.left, hkept, hlookahead, hlast rfl]
        rfl
      exact ⟨hconsumes, hnone input' hconsumes (hleft.trans hempty) hempty⟩
    | some byte => exact ⟨hconsumes, hsome byte input' hconsumes hleft⟩
  | cons byte lookahead =>
    have hleft : input.left = byte :: (input.pop 1).left := by
      rw [BoundedInput.left_pop (by simp [hlookahead]), BoundedInput.left, hlookahead]
      rfl
    have hconsumes : Consumes input (input.pop 1) := ⟨rfl, rfl, hleft ▸ List.suffix_cons _ _⟩
    exact ⟨hconsumes, hsome byte _ hconsumes hleft⟩

theorem moveByte {post : Bool → BoundedInput → Prop}
    (hfalse : ∀ input', Consumes input input' → input'.left = input.left →
      input.left = input.lookahead → post false input')
    (htrue : ∀ input', Consumes input input' → input'.left = input.left →
      input'.lookahead.length = input.lookahead.length + 1 → post true input') :
    Meets Reading.moveByte input post refused := by
  unfold Meets Reading.moveByte
  rcases @BoundedInput.nextBufferByte_spec input with
    ⟨byte, moved, hnext, hmax, htotal, hkept, hbytes, hlast⟩ | ⟨hnext, hexceeded⟩
  swap
  · rw [hnext]
    exact ⟨rfl, hexceeded⟩
  rw [hnext, ok_bind]
  cases byte with
  | none =>
    have hleft : moved.left = input.left := by
      rw [BoundedInput.left, BoundedInput.left, hkept, hbytes]
      rfl
    have hconsumes : Consumes input moved := ⟨hmax, htotal, hleft ▸ List.suffix_rfl⟩
    refine ⟨hconsumes, hfalse moved hconsumes hleft ?_⟩
    rw [BoundedInput.left, hbytes, hlast rfl]
    exact List.append_nil _
  | some byte =>
    have hleft : ({ moved with lookahead := moved.lookahead ++ [byte] } : BoundedInput).left =
        input.left := by
      rw [BoundedInput.left, BoundedInput.left, hbytes, hkept, List.append_assoc]
      rfl
    have hconsumes : Consumes input { moved with lookahead := moved.lookahead ++ [byte] } :=
      ⟨hmax, htotal, hleft ▸ List.suffix_rfl⟩
    refine ⟨hconsumes, htrue _ hconsumes hleft ?_⟩
    rw [List.length_append, hkept]
    rfl

theorem fillLookahead {post : Bool → BoundedInput → Prop} : ∀ {missing : ℕ} {input : BoundedInput},
    (∀ filled input', Consumes input input' → input'.left = input.left →
      (filled = true → input.lookahead.length + missing ≤ input'.lookahead.length) →
      (filled = false → input.left.length < input.lookahead.length + missing) →
      post filled input') →
    Meets (Reading.fillLookahead missing) input post refused
  | 0, input, h => pure (h true input (Consumes.refl _) rfl (fun _ => le_rfl) (fun hf => by cases hf))
  | missing + 1, input, h => by
    refine bind (moveByte ?_ ?_)
    · intro input' hconsumes hleft hlast _
      refine pure (h false input' hconsumes hleft (fun hf => by cases hf) fun _ => ?_)
      rw [hlast]
      omega
    · intro input' hconsumes hleft hlength _
      refine fillLookahead fun filled input'' hconsumes' hleft' htrue hfalse => ?_
      rw [hleft] at hleft' hfalse
      exact h filled input'' (hconsumes.trans hconsumes') hleft'
        (fun hfilled => by have := htrue hfilled; omega)
        (fun hfilled => by have := hfalse hfilled; omega)

/-- **Peeking consumes nothing.** -/
theorem peekNthByte {index : ℕ} (h : ∀ input', Consumes input input' → input'.left = input.left →
      post input.left[index]? input') : Meets (Reading.peekNthByte index) input post refused := by
  refine bind (pure fun _ => bind (fillLookahead fun filled input' hconsumes hleft htrue hfalse _ => ?_))
  cases filled with
  | true =>
    refine bind (pure fun _ => pure ?_)
    have hindex : index < input'.lookahead.length := by have := htrue rfl; omega
    have hpeeked : input'.lookahead[index]? = input.left[index]? := by
      rw [← hleft, BoundedInput.left, List.getElem?_append_left hindex]
    rw [hpeeked]
    exact h input' hconsumes hleft
  | false =>
    have hindex : input.left.length ≤ index := by
      have := hfalse rfl
      have hlength : input.lookahead.length ≤ input.left.length := by simp [BoundedInput.left]
      omega
    refine pure ?_
    rw [← List.getElem?_eq_none hindex]
    exact h input' hconsumes hleft

theorem peekByte
    (h : ∀ input', Consumes input input' → input'.left = input.left →
      post input.left.head? input') :
    Meets Reading.peekByte input post refused :=
  peekNthByte (List.head?_eq_getElem? ▸ h)

variable {post : Bytes → BoundedInput → Prop}

/-- What is available is a first part of what is left. -/
theorem available (h : ∀ input', Consumes input input' → input'.left = input.left →
      (input'.ready = [] → input.left = []) → post input'.ready input') :
    Meets Reading.available input post refused := by
  unfold Meets Reading.available
  by_cases hlookahead : input.lookahead = []
  · rw [if_neg (not_not_intro hlookahead)]
    rcases @BoundedInput.fillBuffer_spec input with
      ⟨filled, hfill, hmax, htotal, hleft, hkept, hempty⟩ | ⟨hfill, hexceeded⟩
    · rw [hfill, ok_bind]
      have hconsumes : Consumes input filled := ⟨hmax, htotal, hleft ▸ List.suffix_rfl⟩
      refine ⟨hconsumes, h filled hconsumes hleft fun hready => ?_⟩
      have hfilled : filled.lookahead = [] := hkept.trans hlookahead
      rw [BoundedInput.ready, if_neg (not_not_intro hfilled)] at hready
      rw [← hleft, BoundedInput.left, hfilled, hready, hempty hready]
      rfl
    · rw [hfill]
      exact ⟨rfl, hexceeded⟩
  · rw [if_pos hlookahead]
    refine ⟨Consumes.refl _, h input (Consumes.refl _) rfl fun hready => absurd ?_ hlookahead⟩
    have hhead := input.head_lt
    rw [BoundedInput.ready, if_pos hlookahead] at hready
    rcases List.take_eq_nil_iff.mp hready with hsize | hnil
    · omega
    · exact hnil

/-- What is ready stays ready. -/
theorem available_of_ready (hready : input.ready ≠ [])
    (h : post input.ready input) : Meets Reading.available input post refused := by
  unfold Meets Reading.available
  by_cases hlookahead : input.lookahead = []
  · have hbuffer : input.buffer ≠ [] := by
      rwa [BoundedInput.ready, if_neg (not_not_intro hlookahead)] at hready
    rw [if_neg (not_not_intro hlookahead), BoundedInput.fillBuffer, if_pos hbuffer]
    exact ⟨Consumes.refl _, h⟩
  · rw [if_pos hlookahead]
    exact ⟨Consumes.refl _, h⟩

theorem consume {post : Unit → BoundedInput → Prop} (hlength : length ≤ input.ready.length)
    (h : ∀ input', Consumes input input' → input'.left = input.left.drop length →
      post () input') :
    Meets (Reading.consume length) input post refused := by
  unfold Meets Reading.consume
  by_cases hlookahead : input.lookahead = []
  · rw [if_neg (not_not_intro hlookahead)]
    rw [BoundedInput.ready, if_neg (not_not_intro hlookahead)] at hlength
    have hleft : ({ input with buffer := input.buffer.drop length } : BoundedInput).left =
        input.left.drop length := by
      rw [BoundedInput.left, BoundedInput.left, hlookahead, List.nil_append, List.nil_append,
        List.drop_append_of_le_length hlength]
    have hconsumes : Consumes input { input with buffer := input.buffer.drop length } :=
      ⟨rfl, rfl, hleft ▸ List.drop_suffix _ _⟩
    exact ⟨hconsumes, h _ hconsumes hleft⟩
  · rw [if_pos hlookahead]
    rw [BoundedInput.ready, if_pos hlookahead, List.length_take] at hlength
    have hleft : (input.pop length).left = input.left.drop length :=
      BoundedInput.left_pop (by omega)
    have hconsumes : Consumes input (input.pop length) := ⟨rfl, rfl, hleft ▸ List.drop_suffix _ _⟩
    exact ⟨hconsumes, h _ hconsumes hleft⟩

end Meets

/-- A computation that only looks at the bytes that are left. -/
def Peeks {α : Type} (computation : Reading α) (seen : Bytes → α) : Prop :=
  ∀ ⦃input : BoundedInput⦄ ⦃post : α → BoundedInput → Prop⦄ ⦃refused : MysqlSqlRewriteError → Prop⦄,
    (∀ input', Consumes input input' → input'.left = input.left →
      post (seen input.left) input') → Meets computation input post refused

variable {condition : Prop}

namespace Peeks

variable {α β : Type} {seen : Bytes → α} {computation : Reading α}

theorem pure (a : α) : Peeks (Pure.pure a) fun _ => a :=
  fun _ _ _ h => Meets.pure (h _ (Consumes.refl _) rfl)

theorem bind {next : α → Reading β} {seen' : α → Bytes → β} (hfirst : Peeks computation seen)
    (hnext : ∀ a, Peeks (next a) (seen' a)) :
    Peeks (computation >>= next) fun bytes => seen' (seen bytes) bytes := by
  intro input post refused h
  refine Meets.bind (hfirst fun input' hconsumes hleft _ => hnext _ fun input'' hconsumes' hleft' => ?_)
  rw [hleft]
  exact h input'' (hconsumes.trans hconsumes') (hleft'.trans hleft)

variable {seen' : Bytes → α}

theorem ite [Decidable condition] {computation' : Reading α} (hyes : Peeks computation seen)
    (hno : Peeks computation' seen') :
    Peeks (if condition then computation else computation')
      fun bytes => if condition then seen bytes else seen' bytes := by
  intro input post refused h
  by_cases hcondition : condition
  · simp only [if_pos hcondition] at h ⊢
    exact hyes h
  · simp only [if_neg hcondition] at h ⊢
    exact hno h

theorem congr (h : Peeks computation seen)
    (heq : ∀ bytes, seen bytes = seen' bytes) : Peeks computation seen' := by
  rwa [← funext heq]

theorem nthByte (index : ℕ) : Peeks (Reading.peekNthByte index) (·[index]?) :=
  fun _ _ _ => Meets.peekNthByte

theorem byte : Peeks Reading.peekByte List.head? :=
  fun _ _ _ => Meets.peekByte

end Peeks

/-! ## Rules -/

/-- A computation simulates another one from every input with these bytes left. -/
def From {α γ : Type} (agrees : Rewriting γ → α → BoundedInput → Prop)
    (computation : Reading α) (bytes : Bytes) (expected : Rewriting γ) : Prop :=
  ∀ input : BoundedInput, input.left = bytes → Simulates agrees computation input expected

namespace From

variable {α β γ δ σ : Type} {bytes rest : Bytes} {byte : UInt8}
  {agrees : Rewriting γ → α → BoundedInput → Prop}
  {expected expected' : Rewriting γ}

theorem fail {error : MysqlSqlRewriteError} (h : expected = .error error) :
    From agrees (Reading.fail error) bytes expected :=
  fun _ _ => h

variable {next : β → Reading α}

theorem lift_bind {result : Rewriting β}
    {rest : β → Rewriting γ} (h : ∀ b, From agrees (next b) bytes (rest b)) :
    From agrees (Reading.lift result >>= next) bytes (result >>= rest) := by
  intro input hleft
  cases result with
  | error error => exact (rfl : Except.error error = _)
  | ok b => exact Meets.bind (Meets.pure fun _ => h b input hleft)

theorem ite [Decidable condition] {yes no : Reading α}
    (hyes : condition → From agrees yes bytes expected)
    (hno : ¬ condition → From agrees no bytes expected') :
    From agrees (if condition then yes else no) bytes
      (if condition then expected else expected') := by
  by_cases h : condition
  · rw [if_pos h, if_pos h]
    exact hyes h
  · rw [if_neg h, if_neg h]
    exact hno h

theorem peek {computation : Reading β} {seen : Bytes → β}
    (hseen : Peeks computation seen) (h : From agrees (next (seen bytes)) bytes expected) :
    From agrees (computation >>= next) bytes expected := by
  rintro input rfl
  exact Meets.bind (hseen fun input' _ hleft _ => h input' hleft)

variable {next : Option UInt8 → Reading α}

theorem nextByte_nil (h : From agrees (next none) [] expected) :
    From agrees (Reading.nextByte >>= next) [] expected := by
  intro input hleft
  refine Meets.bind (Meets.nextByte (fun input' _ _ hleft' _ => h input' hleft') ?_)
  intro byte input' _ hleft' _
  cases hleft.symm.trans hleft'

theorem nextByte_cons (h : From agrees (next (some byte)) rest expected) :
    From agrees (Reading.nextByte >>= next) (byte :: rest) expected := by
  intro input hleft
  refine Meets.bind (Meets.nextByte (fun input' _ hleft' _ _ => ?_) fun byte' input' _ hleft' _ => ?_)
  · cases hleft.symm.trans hleft'
  · obtain ⟨rfl, rfl⟩ := List.cons.inj (hleft.symm.trans hleft')
    exact h input' rfl

section Bind

variable {view : β → Bytes → δ} {computation : Reading β} {next : β → Reading α}
  {result : Rewriting δ}

variable (hfirst : From (Returns view) computation bytes result)
include hfirst

theorem bind_of (herror : ∀ error, result = .error error → expected = .error error)
    (h : ∀ b bytes', bytes'.length ≤ bytes.length → result = .ok (view b bytes') →
      From agrees (next b) bytes' expected) :
    From agrees (computation >>= next) bytes expected := by
  rintro input rfl
  refine Meets.bind (Meets.mono (hfirst input rfl) ?_ herror)
  intro b input' hconsumes hreturns _
  exact h b input'.left hconsumes.length_le hreturns input' rfl

theorem bind {rest : δ → Rewriting γ}
    (h : ∀ b bytes', bytes'.length ≤ bytes.length →
      From agrees (next b) bytes' (rest (view b bytes'))) :
    From agrees (computation >>= next) bytes (result >>= rest) := by
  refine hfirst.bind_of (fun error herror => ?_) fun b bytes' hle hresult => ?_
  · rw [herror]
    rfl
  · rw [hresult]
    exact h b bytes' hle

end Bind

/-! ### Turns of loops -/

theorem returns {view : α → Bytes → γ} {a : α} (h : expected = .ok (view a bytes)) :
    From (Returns view) (pure a) bytes expected := by
  rintro input rfl
  exact Meets.pure h

variable {loop : β → Bytes → Rewriting γ}

section Turns

variable {view : α → Bytes → γ} {a : α}

theorem again {state : β} (hlength : bytes.length < length) (h : expected = loop state bytes) :
    From (Turns view loop length) (pure (.inl state)) bytes expected := by
  rintro input rfl
  exact Meets.pure ⟨hlength, h⟩

theorem done (h : expected = .ok (view a bytes)) :
    From (Turns view loop length) (pure (.inr a)) bytes expected := by
  rintro input rfl
  exact Meets.pure h

/-- A last turn. -/
theorem last {computation : Reading α} (h : From (Returns view) computation bytes expected) :
    From (Turns view loop length) (computation >>= fun a => pure (.inr a)) bytes expected := by
  rintro input rfl
  exact Meets.bind (Meets.mono (h input rfl) (fun _ _ _ hreturns _ => Meets.pure hreturns)
    fun _ herror => herror)

variable {state : β → Bytes → σ} {expected : Rewriting (σ ⊕ γ)}

theorem stepAgain {next : β} (hlength : bytes.length < length)
    (h : expected = .ok (.inl (state next bytes))) :
    From (Steps state view length) (pure (.inl next)) bytes expected := by
  rintro input rfl
  exact Meets.pure ⟨hlength, h⟩

theorem stepDone (h : expected = .ok (.inr (view a bytes))) :
    From (Steps state view length) (pure (.inr a)) bytes expected := by
  rintro input rfl
  exact Meets.pure h

end Turns

variable {step : β → Reading (β ⊕ α)}

/-- **The rule of a loop whose counterpart needs fuel.** -/
theorem forever_within {view : α → Bytes → γ} {loop : ℕ → β → Bytes → Rewriting γ}
    (hstep : ∀ {fuel state bytes}, bytes.length < fuel →
      From (TurnsWithin view loop bytes.length) (step state) bytes (loop fuel state bytes))
    {fuel : ℕ} {state : β} (hfuel : bytes.length < fuel) :
    From (Returns view) (Reading.forever step state) bytes (loop fuel state bytes) := by
  rintro input rfl
  unfold Simulates Meets Reading.forever
  generalize hturns : input.left.length + 1 = turns
  replace hturns : input.left.length < turns := by omega
  induction turns generalizing input state fuel with
  | zero => omega
  | succ turns ih =>
    rw [iterate]
    have hmeets := @hstep fuel state _ hfuel input rfl
    unfold Simulates Meets at hmeets
    cases hresult : step state input with
    | error error =>
      rw [hresult] at hmeets
      cases error with
      | rewrite error => exact hmeets
      | inputLimit limit => exact hmeets
      | exhausted => exact hmeets
    | ok result =>
      rw [hresult] at hmeets
      obtain ⟨hconsumes, hnext⟩ := hmeets
      rcases result with ⟨state' | a, input'⟩
      · obtain ⟨hlt, fuel', hfuel', hloop⟩ := hnext
        rw [hloop]
        exact (ih input' hfuel' (hlt.trans_le (Nat.le_of_lt_succ hturns))).of_consumes hconsumes
      · exact ⟨hconsumes, hnext⟩

/-- One step of the counterpart is a turn. -/
theorem of_steps {state : β → Bytes → σ} {view : α → Bytes → γ}
    {step : σ → Rewriting (σ ⊕ γ)} {computation : Reading (β ⊕ α)} {current : β}
    {fuel : ℕ} (hfuel : bytes.length < fuel)
    (h : From (Steps state view bytes.length) computation bytes (step (state current bytes))) :
    From
      (TurnsWithin view (fun fuel b bytes => iterate step .timeout fuel (state b bytes))
        bytes.length) computation bytes (iterate step .timeout fuel (state current bytes)) := by
  rintro input rfl
  cases fuel with
  | zero => omega
  | succ fuel =>
    rw [iterate]
    refine Meets.mono (h input rfl) (fun next input' _ hsteps => ?_) fun error herror => ?_
    · cases next with
      | inl next =>
        obtain ⟨hlt, hstep⟩ := hsteps
        refine ⟨hlt, fuel, by omega, ?_⟩
        rw [hstep]
        rfl
      | inr a =>
        rw [TurnsWithin, hsteps]
        rfl
    · rw [herror]
      rfl

/-- **The rule of a loop**: it is enough that every turn brings the bytes that are left down and
agrees with the counterpart. -/
theorem forever {view : α → Bytes → γ} (hstep : ∀ {state bytes},
      From (Turns view loop bytes.length) (step state) bytes (loop state bytes)) {state : β} :
    From (Returns view) (Reading.forever step state) bytes (loop state bytes) := by
  refine @forever_within _ _ _ bytes step view (fun _ => loop) ?_ _ state (Nat.lt_succ_self _)
  rintro fuel state bytes - input rfl
  refine Meets.mono (hstep input rfl) (fun next input' _ hturns => ?_) fun _ herror => herror
  cases next with
  | inl state => exact ⟨hturns.1, _, Nat.lt_succ_self _, hturns.2⟩
  | inr a => exact hturns

end From

end DatabasesEverywhere.MysqlSql
