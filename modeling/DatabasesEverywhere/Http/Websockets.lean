import DatabasesEverywhere.Foundations.Maps
import DatabasesEverywhere.Foundations.Runs

/-!
# Http/Websockets — tokens that open one WebSocket

A call takes a permit and reads the clock, and then waits for the lock of the table of used tokens.
With the lock it drops what has expired at the time it has read, and enters its token.

    permit · clock  ──▸  waiting  ──lock──▸  retain · insert

A call that waits too long comes in between the expiry check and the table.
-/

open Foundations

namespace DatabasesEverywhere.Http

inductive WebSocketAdmissionError
  | expired | replay | tokenCapacity | connectionCapacity
  deriving DecidableEq

def maxConsumedWebsocketJtis : ℕ := 65536

/-- A call that has read the clock and waits for the lock. -/
structure Admission where
  jti : String
  now : ℤ

structure ApiRateLimiter where
  clock : ℤ
  consumed : Map String ℤ := ∅
  waiting : List Admission := []
  /-- The ids that were admitted, and the times that the table was pruned with. -/
  admitted : List String := []
  sweeps : List ℤ := []

inductive LimiterAction
  | advance (now : ℤ)
  /-- `permit`: whether `active_websockets` has a permit left. -/
  | request (jti : String) (permit : Bool)
  | lock (index : ℕ)
  /-- The caller goes away while it waits. -/
  | giveUp (index : ℕ)

namespace ApiRateLimiter

variable (expiresAt : String → ℤ) (s : ApiRateLimiter)

/-- `admit_websocket`, up to the lock. -/
def request (jti : String) (permit : Bool) : Except WebSocketAdmissionError ApiRateLimiter :=
  if !permit then .error .connectionCapacity
  else if expiresAt jti ≤ s.clock then .error .expired
  else .ok { s with waiting := s.waiting ++ [⟨jti, s.clock⟩] }

/-- `admit_websocket`, with the lock. -/
def admitLocked (call : Admission) : Except WebSocketAdmissionError Unit × ApiRateLimiter :=
  let consumed := s.consumed.retain fun _ expiration => call.now < expiration
  let s := { s with consumed, sweeps := call.now :: s.sweeps }
  if (consumed.lookup call.jti).isSome then (.error .replay, s)
  else if maxConsumedWebsocketJtis ≤ consumed.entries.length then (.error .tokenCapacity, s)
  else
    (.ok (), { s with
      consumed := consumed.insert call.jti (expiresAt call.jti)
      admitted := call.jti :: s.admitted })

def step : LimiterAction → ApiRateLimiter
  | .advance now => { s with clock := max s.clock now }
  | .request jti permit => (s.request expiresAt jti permit).toOption.getD s
  | .lock index =>
    s.waiting[index]?.elim s fun call =>
      (admitLocked expiresAt { s with waiting := s.waiting.eraseIdx index } call).2
  | .giveUp index => { s with waiting := s.waiting.eraseIdx index }

/-- A call takes the lock before the table is pruned with a time at which its token has expired. -/
def inTime : LimiterAction → Bool
  | .lock index => s.waiting[index]?.all fun call => s.sweeps.all (· < expiresAt call.jti)
  | _ => true

/-- A used token is in the table, or was dropped once it had expired. -/
structure Sound : Prop where
  waiting : ∀ call ∈ s.waiting, call.now < expiresAt call.jti
  used : ∀ jti ∈ s.admitted, s.consumed.lookup jti = some (expiresAt jti) ∨
    ∃ time ∈ s.sweeps, expiresAt jti ≤ time
  once : s.admitted.Nodup

variable {expiresAt s} (h : s.Sound expiresAt)
include h

theorem Sound.admitLocked {call : Admission} (hlive : call.now < expiresAt call.jti)
    (hswept : ∀ time ∈ s.sweeps, time < expiresAt call.jti) :
    (s.admitLocked expiresAt call).2.Sound expiresAt := by
  -- what the call drops has expired at its time
  have hused : ∀ jti ∈ s.admitted,
      (s.consumed.retain fun _ expiration => call.now < expiration).lookup jti =
        some (expiresAt jti) ∨ ∃ time ∈ call.now :: s.sweeps, expiresAt jti ≤ time := by
    intro jti hjti
    rcases h.used jti hjti with hentry | ⟨time, htime, hle⟩
    · by_cases hnow : call.now < expiresAt jti
      · exact .inl (Map.lookup_retain_of_keep hentry (decide_eq_true hnow))
      · exact .inr ⟨_, List.mem_cons_self, not_lt.mp hnow⟩
    · exact .inr ⟨time, List.mem_cons_of_mem _ htime, hle⟩
  unfold ApiRateLimiter.admitLocked
  dsimp only
  split
  · exact ⟨h.waiting, hused, h.once⟩
  next habsent =>
  split
  · exact ⟨h.waiting, hused, h.once⟩
  have hfresh : call.jti ∉ s.admitted := by
    intro hjti
    rcases hused _ hjti with hentry | ⟨time, htime, hle⟩
    · exact habsent (by rw [hentry]; rfl)
    · rcases List.mem_cons.mp htime with rfl | htime
      · exact not_lt.mpr hle hlive
      · exact not_lt.mpr hle (hswept time htime)
  refine ⟨h.waiting, fun jti hjti => ?_, List.nodup_cons.mpr ⟨hfresh, h.once⟩⟩
  rw [Map.lookup_insert_ite]
  split
  · next hsame => exact .inl (hsame ▸ rfl)
  · next hother => exact hused jti ((List.mem_cons.mp hjti).resolve_left hother)

theorem Sound.step {action : LimiterAction} (htime : s.inTime expiresAt action = true) :
    (s.step expiresAt action).Sound expiresAt := by
  have herase : ∀ index, ∀ call ∈ s.waiting.eraseIdx index, call.now < expiresAt call.jti :=
    fun _ call hcall => h.waiting call (List.mem_of_mem_eraseIdx hcall)
  cases action with
  | advance now => exact ⟨h.waiting, h.used, h.once⟩
  | giveUp index => exact ⟨herase index, h.used, h.once⟩
  | request jti permit =>
    simp only [ApiRateLimiter.step, request]
    split
    · exact h
    split
    · exact h
    next hlive =>
    refine ⟨List.forall_mem_append.mpr ⟨h.waiting, ?_⟩, h.used, h.once⟩
    exact List.forall_mem_singleton.mpr (not_le.mp hlive)
  | lock index =>
    cases hcall : s.waiting[index]? with
    | none => simpa [ApiRateLimiter.step, hcall] using h
    | some call =>
      simp only [inTime, hcall, Option.all_some, List.all_eq_true, decide_eq_true_eq] at htime
      simp only [ApiRateLimiter.step, hcall]
      have herased : Sound expiresAt { s with waiting := s.waiting.eraseIdx index } :=
        ⟨herase index, h.used, h.once⟩
      exact herased.admitLocked (h.waiting call (List.mem_of_getElem? hcall)) htime

omit h

/-- **A token opens one connection** in every run in which no call comes too late for its token. -/
theorem websocket_tokens_used_once (expiresAt : String → ℤ) (clock : ℤ)
    (actions : List LimiterAction) (htime : RunsWithin (step expiresAt)
      (fun s action => s.inTime expiresAt action = true) { clock } actions) :
    (run (step expiresAt) { clock } actions).admitted.Nodup := by
  have hsound : Sound expiresAt (run (step expiresAt) { clock } actions) :=
    RunsWithin.invariant (fun _ _ h => h.step) actions ⟨nofun, nofun, List.nodup_nil⟩ htime
  exact hsound.once

def exampleExpiry (jti : String) : ℤ := if jti = "a" then 10 else 20

theorem websocket_tokens_used_once_twice :
    (run (step exampleExpiry) { clock := 0 }
      [.request "a" true, .request "a" true, .lock 0, .lock 0]).admitted.Nodup :=
  websocket_tokens_used_once exampleExpiry 0 _ (by decide +kernel)

/-- **A late call opens a second connection**: it has passed the expiry check, and another call has
dropped its token from the table. -/
theorem late_call_replays :
    ¬(run (step exampleExpiry) { clock := 0 } [.request "a" true, .request "a" true, .lock 0,
      .advance 10, .request "b" true, .lock 1, .lock 0]).admitted.Nodup := by
  decide +kernel

end ApiRateLimiter

end DatabasesEverywhere.Http
