import DatabasesEverywhere.Foundations.Bytes
import DatabasesEverywhere.Foundations.Faults

/-!
# Foundations/Streams — reading from and writing to byte streams

A port is a byte string inside of a state: what a peer has still to say, or what it was told so far.

    readExact  takes bytes off the front of a port
    writeAll   puts bytes at the end of one

Both are steps of the host, so a peer may refuse them or leave them waiting.  What it then has
accepted of a write is short of the whole.
-/

namespace Foundations

/-- A byte string inside of a state. -/
structure Port (σ : Type) where
  bytes : σ → Bytes
  set : σ → Bytes → σ
  set_bytes : ∀ s, set s (bytes s) = s

namespace Program

variable {σ ε : Type}

/-- `read_exact`: the next `n` bytes, or `eof` where the stream has ended before. -/
def readExact (port : Port σ) (io eof : ε) (n : ℕ) : Program σ ε Bytes :=
  if n = 0 then pure []
  else do
    let s ← look
    step io (fun s => port.set s ((port.bytes s).drop n))
      fun done s => port.set s ((port.bytes s).drop (min done n))
    if (port.bytes s).length < n then fail eof else pure ((port.bytes s).take n)

/-- `write_all`. -/
def writeAll (port : Port σ) (io : ε) (data : Bytes) : Program σ ε Unit :=
  if data = [] then pure ()
  else
    step io (fun s => port.set s (port.bytes s ++ data))
      fun done s => port.set s (port.bytes s ++ data.take (min done (data.length - 1)))

end Program

variable {σ ε : Type} {port : Port σ}

theorem ensures_readExact {io eof : ε} {n : ℕ} {post : Post σ ε Bytes} {s : σ}
    (hread : ∀ front rest, port.bytes s = front ++ rest → front.length = n →
      post.returned front (port.set s rest))
    (hfailed : 0 < n → ∀ rest, rest <:+ port.bytes s → post.failed io (port.set s rest))
    (heof : (port.bytes s).length < n → post.failed eof (port.set s []))
    (hstopped : 0 < n → ∀ rest, rest <:+ port.bytes s → post.stopped (port.set s rest)) :
    Ensures (.readExact port io eof n) post s := by
  rw [Program.readExact]
  split
  · next hzero =>
    have hnone := hread [] (port.bytes s) rfl hzero.symm
    rw [port.set_bytes] at hnone
    exact ensures_pure hnone
  next hpos =>
  have hpos := Nat.pos_of_ne_zero hpos
  refine ensures_bind (ensures_look (ensures_bind (ensures_step ?_ ?_ ?_)))
  · split
    · next hshort =>
      refine ensures_fail ?_
      rw [List.drop_eq_nil_of_le (Nat.le_of_lt hshort)]
      exact heof hshort
    · next hlong =>
      exact ensures_pure (hread _ _ (List.take_append_drop n _).symm
        (by rw [List.length_take]; omega))
  · exact fun done => hfailed hpos _ (List.drop_suffix _ _)
  · exact fun done => hstopped hpos _ (List.drop_suffix _ _)

theorem ensures_writeAll {io : ε} {data : Bytes} {post : Post σ ε Unit} {s : σ}
    (hwritten : post.returned () (port.set s (port.bytes s ++ data)))
    (hfailed : ∀ k < data.length, post.failed io (port.set s (port.bytes s ++ data.take k)))
    (hstopped : ∀ k < data.length, post.stopped (port.set s (port.bytes s ++ data.take k))) :
    Ensures (.writeAll port io data) post s := by
  rw [Program.writeAll]
  split
  · next hempty =>
    subst hempty
    rw [List.append_nil, port.set_bytes] at hwritten
    exact ensures_pure hwritten
  · next hdata =>
    have hpos := List.length_pos_of_ne_nil hdata
    refine ensures_step hwritten (fun done => hfailed _ ?_) fun done => hstopped _ ?_
    · omega
    · omega

end Foundations
