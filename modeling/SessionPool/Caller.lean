import SessionPool.Pool

/-! What callers of the pool do: run an operation on a session, load a state into it, close it, and the
    like for all sessions. Each is a program of actions on the pool. Work goes to the worker and its
    result is waited for; a caller that gives up waiting is told so, but the work goes on. -/

namespace SessionPool

/-- A program of actions on the pool. -/
abbrev Caller (α : Type) := Program Ask Ask.Reply α

/-- What came of closing sessions: the ids of those that closed, and the failures of the others. -/
structure CloseReport where
  closed : List String := []
  failures : List PoolError := []
  deriving DecidableEq

def CloseReport.isClean (r : CloseReport) : Bool := r.failures.isEmpty

/-- What came of a shutdown. -/
structure ShutdownReport where
  close : CloseReport
  terminated : Bool
  deriving DecidableEq

def ShutdownReport.isClean (r : ShutdownReport) : Bool := r.close.isClean && r.terminated

namespace Caller

/-- A single action. -/
def act (a : Ask) : Caller a.Reply := Program.ask (A := Ask) a

/-- Sends work and waits for its result. -/
def send (session : Nat) (w : Work) : Caller (Except PoolError Yield) := do
  match ← act (.submit session w) with
  | .error e => pure (.error e)
  | .ok ticket => act (.await ticket)

/-- Loads a state into a session, with further arguments; a ready session and an empty state need
    nothing. -/
def loadWith (session : String) (state : Json) (extra : Fields) (verify : Bool) :
    Caller (Except PoolError LoadOutcome) := do
  match ← act (.obtain session) with
  | .error e => pure (.error e)
  | .ok (n, ready) =>
    if ready then pure (.ok .alreadyInitialized)
    else if isEmptyScenario state then pure (.ok .emptyScenario)
    else
      let result ← send n (.load state extra verify)
      pure (result.map Yield.toOutcome)

/-- Loads a state into a session. -/
def load (session : String) (state : Json) (verify : Bool) : Caller (Except PoolError LoadOutcome) :=
  loadWith session state [] verify

/-- Calls an operation that loads no state. A session whose group has no state is ready then. -/
def call (c : Catalog) (session operation : String) (args : Fields) :
    Caller (Except PoolError Normalized) := do
  match ← act (.obtain session) with
  | .error e => pure (.error e)
  | .ok (n, ready) =>
    if !ready && c.isStateless (SessionKey.parse session).group then
      let _ ← act (.markReady session)
    let result ← send n (.call operation args)
    pure (result.map Yield.normalized)

/-- Runs an operation on a session; its name may carry a group, and whatever loads a state is a load. -/
def invoke (c : Catalog) (session name : String) (args : Arguments) :
    Caller (Except PoolError Normalized) :=
  match args.fields with
  | .error e => pure (.error e)
  | .ok fields =>
    let operation := operationName name
    if isLoad operation then do
      let (state, extra) := Arguments.splitScenario fields
      let result ← loadWith session state extra false
      pure (result.map Normalized.ofOutcome)
    else call c session operation fields

/-- Closes a session; `false` if there is none. It is gone whether or not its client closes. -/
def close (session : String) : Caller (Except PoolError Bool) := do
  match ← act (.remove session) with
  | none => pure (.ok false)
  | some n =>
    match ← send n .release with
    | .ok _ => pure (.ok true)
    | .error e => pure (.error (e.toClose session))

/-- Sends the release of sessions, one after the other. -/
def releaseEach : Table Nat → Caller (Table (Except PoolError Nat))
  | [] => pure []
  | (id, n) :: rest => do
    let ticket ← act (.submit n .release)
    let tickets ← releaseEach rest
    pure ((id, ticket) :: tickets)

/-- Waits for what was sent, if it was. -/
def awaitSent : Except PoolError Nat → Caller (Except PoolError Yield)
  | .error e => pure (.error e)
  | .ok ticket => act (.await ticket)

/-- Waits for releases, one after the other. -/
def awaitEach : Table (Except PoolError Nat) → Caller CloseReport
  | [] => pure {}
  | (id, ticket) :: rest => do
    let result ← awaitSent ticket
    let report ← awaitEach rest
    match result with
    | .ok _ => pure { report with closed := id :: report.closed }
    | .error e => pure { report with failures := e.toClose id :: report.failures }

/-- Closes all sessions and clears the log. -/
def closeAll : Caller CloseReport := do
  let sessions ← act .drain
  let tickets ← releaseEach sessions
  let report ← awaitEach tickets
  let _ ← act .clearLog
  pure report

/-- Asks sessions for their states, one after the other; a session that does not tell it has none. -/
def saveEach (c : Catalog) : List String → Caller (Table Json)
  | [] => pure []
  | id :: rest => do
    let result ← invoke c id saveScenario (.structured [])
    let saved ← saveEach c rest
    match result with
    | .ok n => pure ((id, n.value) :: saved)
    | .error _ => pure ((id, .null) :: saved)

/-- The states of all live sessions. -/
def saveAll (c : Catalog) : Caller (Table Json) := do
  let ids ← act .ids
  saveEach c ids

/-- Closes all sessions and stops the worker, waiting for its end for so many nanoseconds. -/
def shutdown (within : Nat) : Caller ShutdownReport := do
  let report ← closeAll
  match ← act .stop with
  | true => pure ⟨report, true⟩
  | false =>
    let ended ← act (.gone within)
    pure ⟨report, ended⟩

end Caller

namespace Pool
variable {ρ κ α : Type}

/-- Runs a caller that gives up at its deadlines: how far it gets, and the pool then. -/
def run (r : Remote ρ κ) (c : Caller α) (p : Pool ρ κ) : Program.Progress Ask Ask.Reply α × Pool ρ κ :=
  let a := c.advance (host r false) p
  (a.progress, a.state)

end Pool
end SessionPool
