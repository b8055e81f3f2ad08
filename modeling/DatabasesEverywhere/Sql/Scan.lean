import DatabasesEverywhere.Sql.Lexer

/-!
# Sql/Scan — statements, observers and the scan loop

The scan reads event after event, hands comments and tokens to an observer, gathers the tokens of a
statement up to a limit, and shows the observer each finished statement.  After a PostgreSQL
`COPY … FROM STDIN` it skips the data lines.

    events ──▸ comment ─▸ observer
           ──▸ token ───▸ observer, statement
           ──▸ `;` ─────▸ statement finished ──▸ observer

Every event consumes input, so the length of the input is fuel enough: `scanFrom` solves the
equation of the loop (`scanFrom_eq`).
-/

open Foundations

namespace DatabasesEverywhere.Sql

def maxSqlTokensPerStatement : ℕ := 4096

structure Statement where
  tokens : List SqlToken := []
  previousIdentifierWasFrom : Bool := false
  copyFromStdin : Bool := false
  truncated : Bool := false
  deriving DecidableEq

def Statement.push (statement : Statement) (token : SqlToken) : Statement :=
  let noted :=
    match token with
    | .identifier word =>
      { statement with
        copyFromStdin := statement.copyFromStdin ||
          (statement.previousIdentifierWasFrom && eqIgnoreAsciiCase word.bytes (ascii "STDIN"))
        previousIdentifierWasFrom := eqIgnoreAsciiCase word.bytes (ascii "FROM") }
    | .quotedIdentifier _ | .other => statement
    | _ => { statement with previousIdentifierWasFrom := false }
  if noted.tokens.length < maxSqlTokensPerStatement then
    { noted with tokens := noted.tokens ++ [token] }
  else { noted with truncated := true }

def identifierAt (tokens : List SqlToken) (index : ℕ) : Option Text :=
  match tokens[index]? with
  | some (.identifier name) | some (.quotedIdentifier name) => some name
  | _ => none

/-- `SqlObserver`: what a scan shows its caller.  An error ends the scan. -/
structure SqlObserver (State Error : Type) where
  fromInspection : InspectionError → Error
  comment : State → SqlComment → Except Error State
  token : State → SqlToken → Except Error State
  statement : State → Protocol → Statement → Except Error State

section Scan

variable {State Error : Type}

variable (protocol : Protocol)

/-- Whether COPY data follow a finished statement. -/
def Statement.startsCopyData (statement : Statement) : Bool :=
  protocol.family.isPostgres &&
    (identifierAt statement.tokens 0).any (fun word => eqIgnoreAsciiCase word.bytes (ascii "COPY")) &&
    statement.copyFromStdin

/-- A statement without tokens is not shown; the next one starts empty. -/
def Statement.finish (observer : SqlObserver State Error) (state : State) (statement : Statement)
    : Except Error (Bool × State) :=
  if statement.tokens.isEmpty then .ok (false, state)
  else do
    let state ← observer.statement state protocol statement
    return (statement.startsCopyData protocol, state)

/-- What one event does: the input behind it, the statement and the observer. -/
def scanEvent (observer : SqlObserver State Error) (rest : Bytes) (statement : Statement)
    (state : State) : LexEvent → Except Error (Bytes × Statement × State)
  | .comment comment => do return (rest, statement, ← observer.comment state comment)
  | .token token =>
    if token = .semicolon then do
      let (copyData, state) ← statement.finish protocol observer state
      if copyData then
        match skipPostgresCopyData [] rest with
        | .ok rest => return (rest, {}, state)
        | .error error => throw (observer.fromInspection error)
      else return (rest, if statement.tokens.isEmpty then statement else {}, state)
    else do return (rest, statement.push token, ← observer.token state token)

/-- The loop of `scan_sql_reader`, with what it goes on with. -/
def scanTurn (observer : SqlObserver State Error)
    (goOn : Bytes → Statement → State → Except Error State) (input : Bytes) (statement : Statement)
    (state : State) : Except Error State :=
  match nextEvent protocol.sqlBackslashStrings input with
  | .error error => .error (observer.fromInspection error)
  | .ok none => do return (← statement.finish protocol observer state).2
  | .ok (some (event, rest)) => do
    let (rest, statement, state) ← scanEvent protocol observer rest statement state event
    goOn rest statement state

/-- The fuel bounds the number of events. -/
def scanLoop (protocol : Protocol) (observer : SqlObserver State Error) :
    (fuel : ℕ) → Bytes → Statement → State → Except Error State
  | 0 => fun _ _ _ => .error (observer.fromInspection (.limit "out of fuel"))
  | fuel + 1 => scanTurn protocol observer (scanLoop protocol observer fuel)

def scanFrom (observer : SqlObserver State Error) (input : Bytes) (statement : Statement)
    (state : State) : Except Error State :=
  scanLoop protocol observer (input.length + 1) input statement state

/-- `scan_sql_reader` over the bytes of a reader. -/
def scanSql (observer : SqlObserver State Error) (input : Bytes) (state : State)
    : Except Error State :=
  scanFrom protocol observer input {} state

/-! ## The fuel is enough -/

theorem skipPostgresCopyData_suffix : ∀ {line input rest : Bytes},
    skipPostgresCopyData line input = .ok rest → rest <:+ input
  | _, [], _, h => by simp [skipPostgresCopyData] at h
  | line, byte :: input, rest, h => by
    have hcons := List.suffix_cons byte input
    rw [skipPostgresCopyData] at h
    split at h
    · split at h
      · cases h
        exact hcons
      · exact (skipPostgresCopyData_suffix h).trans hcons
    split at h
    · exact (skipPostgresCopyData_suffix h).trans hcons
    · exact (skipPostgresCopyData_suffix h).trans hcons

variable {protocol} {observer : SqlObserver State Error} {statement : Statement}

theorem scanEvent_length_le {rest rest' : Bytes} {statement' : Statement} {state state' : State}
    {event : LexEvent} (h : scanEvent protocol observer rest statement state event =
      .ok (rest', statement', state')) : rest'.length ≤ rest.length := by
  cases event with
  | comment comment =>
    obtain ⟨_, _, h⟩ := bind_eq_ok.mp h
    cases h
    exact Nat.le_refl _
  | token token =>
    rw [scanEvent] at h
    split at h
    swap
    · obtain ⟨_, _, h⟩ := bind_eq_ok.mp h
      cases h
      exact Nat.le_refl _
    obtain ⟨⟨copyData, next⟩, _, h⟩ := bind_eq_ok.mp h
    dsimp only at h
    split at h
    · split at h
      next hskip =>
        cases h
        exact (skipPostgresCopyData_suffix hskip).length_le
      · cases h
    · cases h
      exact Nat.le_refl _

variable {input : Bytes}

/-- A turn goes on only with less input. -/
theorem scanTurn_congr {first second : Bytes → Statement → State → Except Error State}
    (h : ∀ rest statement state, rest.length < input.length →
      first rest statement state = second rest statement state) (statement : Statement)
    (state : State) :
    scanTurn protocol observer first input statement state =
      scanTurn protocol observer second input statement state := by
  unfold scanTurn
  split
  · rfl
  · rfl
  rename_i event behind hevent
  cases hturn : scanEvent protocol observer behind statement state event with
  | error error => rfl
  | ok result =>
    obtain ⟨rest, statement', state'⟩ := result
    exact h rest statement' state'
      (Nat.lt_of_le_of_lt (scanEvent_length_le hturn) (nextEvent_length_lt hevent))

/-- More fuel than input changes nothing. -/
theorem scanLoop_fuel (protocol : Protocol) (observer : SqlObserver State Error) :
    ∀ (fuel more : ℕ) (input : Bytes) (statement : Statement) (state : State),
      input.length < fuel → input.length < more →
      scanLoop protocol observer fuel input statement state =
        scanLoop protocol observer more input statement state
  | fuel + 1, more + 1, input, statement, state, hfuel, hmore => by
    exact scanTurn_congr (fun rest statement state hrest =>
      scanLoop_fuel protocol observer fuel more rest statement state (by omega) (by omega))
      statement state

/-- **`scanFrom` is the loop of `scan_sql_reader`.** -/
theorem scanFrom_eq (protocol : Protocol) (observer : SqlObserver State Error) (input : Bytes)
    (statement : Statement) (state : State) :
    scanFrom protocol observer input statement state =
      scanTurn protocol observer (scanFrom protocol observer) input statement state :=
  scanTurn_congr (fun rest statement state hrest =>
    scanLoop_fuel protocol observer _ _ rest statement state hrest (Nat.lt_succ_self _))
    statement state

/-! ## Scans without COPY data

Outside PostgreSQL the events alone decide: the scan is a fold over them. -/

/-- What one event does to the statement and the observer. -/
def observe (protocol : Protocol) (observer : SqlObserver State Error)
    (before : Statement × State) : LexEvent → Except Error (Statement × State)
  | .comment comment => do return (before.1, ← observer.comment before.2 comment)
  | .token token =>
    if token = .semicolon then do
      let (_, state) ← before.1.finish protocol observer before.2
      return (if before.1.tokens.isEmpty then before.1 else {}, state)
    else do return (before.1.push token, ← observer.token before.2 token)

section NotPostgres

variable (hprotocol : protocol.family.isPostgres = false)
include hprotocol

theorem finish_copyData {state state' : State} {copyData : Bool}
    (h : statement.finish protocol observer state = .ok (copyData, state')) : copyData = false := by
  unfold Statement.finish at h
  split at h
  · cases h
    rfl
  · obtain ⟨_, _, h⟩ := bind_eq_ok.mp h
    cases h
    simp [Statement.startsCopyData, hprotocol]

variable (observer)

theorem scanEvent_eq_observe (rest : Bytes) (statement : Statement) (state : State)
    (event : LexEvent) :
    scanEvent protocol observer rest statement state event =
      (observe protocol observer (statement, state) event).map fun result =>
        (rest, result.1, result.2) := by
  cases event with
  | comment comment =>
    simp only [scanEvent, observe]
    cases observer.comment state comment <;> rfl
  | token token =>
    simp only [scanEvent, observe]
    split
    · cases hfinish : statement.finish protocol observer state with
      | error error => rfl
      | ok result =>
        obtain ⟨copyData, state'⟩ := result
        obtain rfl := finish_copyData hprotocol hfinish
        rfl
    · cases observer.token state token <;> rfl

/-- **The scan of a chain of events is a fold over them.** -/
theorem scanFrom_lexes {rest : Bytes} {events : List LexEvent}
    (h : Lexes protocol.sqlBackslashStrings input events rest) (statement : Statement)
    (state : State) :
    scanFrom protocol observer input statement state =
      (events.foldlM (observe protocol observer) (statement, state) >>= fun result =>
        scanFrom protocol observer rest result.1 result.2) := by
  induction h generalizing statement state with
  | done => rfl
  | space hspace _ ih =>
    rw [← ih, scanFrom_eq, scanFrom_eq, scanTurn, scanTurn, nextEvent_space _ hspace]
  | @event _ _ _ _ event _ hspace hevent _ ih =>
    rw [scanFrom_eq, scanTurn, nextEvent_event _ hspace, hevent]
    simp only [Except.map, scanEvent_eq_observe observer hprotocol, List.foldlM_cons]
    cases observe protocol observer (statement, state) event with
    | error error => rfl
    | ok result => exact ih result.1 result.2

end NotPostgres

theorem scanFrom_nil (protocol : Protocol) (observer : SqlObserver State Error)
    (statement : Statement) (state : State) :
    scanFrom protocol observer [] statement state =
      (statement.finish protocol observer state).map Prod.snd := by
  rw [scanFrom_eq, scanTurn, nextEvent]
  cases statement.finish protocol observer state <;> rfl

/-- What the lexer cannot read is not accepted. -/
theorem scanFrom_unreadable (hprotocol : protocol.family.isPostgres = false)
    (observer : SqlObserver State Error) (h : Unreadable protocol.sqlBackslashStrings input)
    (statement : Statement) (state final : State) :
    scanFrom protocol observer input statement state ≠ .ok final := by
  obtain ⟨events, rest, error, hlexes, herror⟩ := h
  rw [scanFrom_lexes observer hprotocol hlexes]
  intro haccepted
  obtain ⟨result, -, hrest⟩ := bind_eq_ok.mp haccepted
  rw [scanFrom_eq, scanTurn, herror] at hrest
  cases hrest

end Scan

end DatabasesEverywhere.Sql
