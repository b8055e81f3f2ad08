import DatabasesEverywhere.Gateway.RedisLogin

/-!
# Gateway/RespHandshake — the first frame, read by read

The listener parses its buffer again after every read.  An answer other than "incomplete" is final
(`parseInitialFrameRoute_extend`, `parseInitialFrameRoute_reject`), so the reads that bring the bytes
in make no difference: the answer is that of the whole stream (`readRespInitialFrame_eq`).
-/

open Foundations

namespace DatabasesEverywhere.Gateway

def maxHandshakeBytes : ℕ := 64 * 1024

/-- `read_resp_initial_frame` over the reads to come; a read of nothing is the end of the stream. -/
def readRespInitialFrame (buffer : Bytes) :
    List Bytes → Except RedisParseError (RedisRoute × Bytes × ℕ)
  | [] => .error .incomplete
  | read :: reads =>
    if read = [] then .error .incomplete
    else
      match parseInitialFrameRoute (buffer ++ read) with
      | .ok (some (route, consumed)) => .ok (route, buffer ++ read, consumed)
      | .ok none =>
        if (buffer ++ read).length > maxHandshakeBytes then .error .unsupported
        else readRespInitialFrame (buffer ++ read) reads
      | .error error => .error error

/-! ## Final answers -/

theorem parseInitialFrameRoute_extend {bytes : Bytes} {route : RedisRoute} {consumed : ℕ}
    (h : parseInitialFrameRoute bytes = .ok (some (route, consumed))) (more : Bytes) :
    parseInitialFrameRoute (bytes ++ more) = .ok (some (route, consumed)) := by
  obtain ⟨args, hframe, hroute⟩ := parseInitialFrameRoute_eq_some.mp h
  exact parseInitialFrameRoute_eq_some.mpr ⟨args, parseRespArray_extend hframe more, hroute⟩

theorem parseInitialFrameRoute_reject {bytes : Bytes} (hbytes : bytes ≠ [])
    {error : RedisParseError}
    (h : parseInitialFrameRoute bytes = .error error) (more : Bytes) :
    parseInitialFrameRoute (bytes ++ more) = .error error := by
  rw [parseInitialFrameRoute] at h ⊢
  cases hframe : parseRespArray bytes with
  | ok found =>
    rw [hframe] at h
    rw [parseRespArray_extend hframe]
    exact h
  | error error' =>
    have hfinal : error' ≠ .incomplete := by
      rintro rfl
      rw [hframe] at h
      cases h
    rw [hframe] at h
    rw [parseRespArray_rejects hbytes _ hframe hfinal]
    exact h

/-! ## The answer of the whole stream -/

/-- The route and the frame it was read from. -/
def frameOf (found : RedisRoute × Bytes × ℕ) : RedisRoute × Bytes :=
  (found.1, found.2.1.take found.2.2)

/-- The answer to a stream that is read at once. -/
def wholeAnswer (bytes : Bytes) : Except RedisParseError (RedisRoute × Bytes) :=
  if bytes = [] then .error .incomplete
  else
    match parseInitialFrameRoute bytes with
    | .ok (some (route, consumed)) => .ok (route, bytes.take consumed)
    | .ok none => .error .incomplete
    | .error error => .error error

/-- **The reads make no difference.**  The induction is over the reads; a buffer that the loop goes on
with is one that a parse has found incomplete. -/
theorem readRespInitialFrame_eq {reads : List Bytes} (hreads : ∀ read ∈ reads, read ≠ [])
    {buffer : Bytes} (hbuffer : buffer = [] ∨ parseInitialFrameRoute buffer = .ok none)
    (hlimit : (buffer ++ reads.flatten).length ≤ maxHandshakeBytes) :
    (readRespInitialFrame buffer reads).map frameOf = wholeAnswer (buffer ++ reads.flatten) := by
  induction reads generalizing buffer with
  | nil =>
    rw [List.flatten_nil, List.append_nil, wholeAnswer]
    rcases hbuffer with rfl | hnone
    · rfl
    · split
      · rfl
      · rw [hnone]
        rfl
  | cons read reads ih =>
    obtain ⟨hread, hreads⟩ := List.forall_mem_cons.mp hreads
    rw [List.flatten_cons, ← List.append_assoc] at hlimit ⊢
    have hne : buffer ++ read ≠ [] := by simp [hread]
    have hwhole : buffer ++ read ++ reads.flatten ≠ [] := by simp [hread]
    rw [readRespInitialFrame, if_neg hread]
    cases hparse : parseInitialFrameRoute (buffer ++ read) with
    | error error =>
      rw [wholeAnswer, if_neg hwhole, parseInitialFrameRoute_reject hne hparse]
      rfl
    | ok found =>
      cases found with
      | none =>
        have hsize : ¬ (buffer ++ read).length > maxHandshakeBytes := by
          rw [List.length_append] at hlimit
          omega
        rw [if_neg hsize]
        exact ih hreads (.inr hparse) hlimit
      | some found =>
        rw [wholeAnswer, if_neg hwhole, parseInitialFrameRoute_extend hparse]
        obtain ⟨args, hframe, -⟩ := parseInitialFrameRoute_eq_some.mp hparse
        have hle := (parseRespArray_eq_ok hframe).2.1
        dsimp only [Except.map, frameOf]
        rw [List.take_append_of_le_length hle]

/-- **Framing is prefix stable and round-trips**: a serialised frame is read back whatever follows it;
answers other than "incomplete" do not change when more bytes come in; and what the listener answers
does not depend on how the client's bytes are split into reads. -/
theorem resp_framing_stable :
    (∀ (args : List Bytes), args.length ≤ 16 → (∀ argument ∈ args, argument.length ≤ 16384) →
      ∀ rest, parseRespArray (serializeRespArray args ++ rest) =
        .ok (args, (serializeRespArray args).length)) ∧
    (∀ (bytes more : Bytes), bytes ≠ [] →
      (∀ args consumed, parseRespArray bytes = .ok (args, consumed) →
        parseRespArray (bytes ++ more) = .ok (args, consumed)) ∧
      ∀ error, parseRespArray bytes = .error error → error ≠ .incomplete →
        parseRespArray (bytes ++ more) = .error error) ∧
    ∀ (reads reads' : List Bytes), (∀ read ∈ reads, read ≠ []) → (∀ read ∈ reads', read ≠ []) →
      reads.flatten = reads'.flatten → reads.flatten.length ≤ maxHandshakeBytes →
      (readRespInitialFrame [] reads).map frameOf = (readRespInitialFrame [] reads').map frameOf := by
  refine ⟨fun args hfew hshort => parseRespArray_serialize ⟨hfew, hshort⟩,
    fun bytes more hbytes => ⟨fun args consumed h => parseRespArray_extend h more, fun error h hfinal =>
      parseRespArray_rejects hbytes error h hfinal more⟩, ?_⟩
  intro reads reads' hreads hreads' hflatten hlimit
  rw [readRespInitialFrame_eq hreads (.inl rfl) hlimit,
    readRespInitialFrame_eq hreads' (.inl rfl) (hflatten ▸ hlimit), hflatten]

theorem authPacket_split :
    parseRespArray (authPacket ++ ascii "*1") =
        .ok ([ascii "AUTH", ascii "app", ascii "pass"], authPacket.length) ∧
      parseRespArray (ascii "*1\r\n+" ++ ascii "OK") = .error .unsupported ∧
      (readRespInitialFrame [] [authPacket]).map frameOf =
        (readRespInitialFrame [] [authPacket.take 7, authPacket.drop 7]).map frameOf :=
  ⟨resp_framing_stable.1 [ascii "AUTH", ascii "app", ascii "pass"] (by decide) (by decide) _,
    (resp_framing_stable.2.1 _ _ (by decide)).2 .unsupported (by decide) (by decide),
    resp_framing_stable.2.2 _ _ (by decide) (by decide) (by decide) (by decide)⟩

end DatabasesEverywhere.Gateway
