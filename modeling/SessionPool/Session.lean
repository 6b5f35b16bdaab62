import SessionPool.CallLog
import SessionPool.Outcome
import SessionPool.Remote
import SessionPool.Worker

/-! Sessions, and the work done on them. A session keeps a client of its server, connected on first use.
    Its line is the order in which jobs take the client: the first in line has it, and no other makes a
    remote call on the session meanwhile. A closed session has given up its client for good.

    Work is a program of moves on one session; between two moves the jobs of other sessions may go on,
    and the callers too. -/

namespace SessionPool

/-- A session; the jobs in `line` are named by their tickets. -/
structure Session (κ : Type) where
  id : String
  locator : Locator
  ready : Bool := false
  closed : Bool := false
  client : Option κ := none
  line : List Nat := []

/-- A move on a session. -/
inductive Move (κ : Type) where
  /-- Stands in line until it is first. -/
  | lock
  /-- Leaves the line. -/
  | unlock
  /-- Looks at the session. -/
  | look
  | markReady
  | connect
  | call (operation : String) (args : Fields)
  /-- Logs a call. -/
  | record (operation : String) (args : Fields) (text : String)
  /-- Closes the session and takes its client away. -/
  | seal
  | close (client : κ)

def Move.Reply {κ : Type} : Move κ → Type
  | .lock => Unit
  | .unlock => Unit
  | .look => Session κ
  | .markReady => Unit
  | .connect => Except RemoteError Unit
  | .call _ _ => Except RemoteError String
  | .record _ _ _ => Unit
  | .seal => Option κ
  | .close _ => Except RemoteError Unit

/-- A move and the session it is made on. -/
structure Deed (κ : Type) where
  session : Nat
  move : Move κ

abbrev Deed.Reply {κ : Type} (d : Deed κ) : Type := d.move.Reply

/-- A program of moves. -/
abbrev Errand (κ α : Type) := Program (Deed κ) Deed.Reply α

/-- What is to be done on a session. -/
inductive Work where
  | call (operation : String) (args : Fields)
  | load (state : Json) (extra : Fields) (verify : Bool)
  | release

/-- What work gives when it does not fail. -/
inductive Yield where
  | text (s : String)
  | outcome (o : LoadOutcome)
  | released

namespace Yield

/-- As the result of an operation. -/
def normalized : Yield → Normalized
  | text s => .ofText s
  | outcome o => .ofOutcome o
  | released => .ofText ""

/-- As the outcome of a load. -/
def toOutcome : Yield → LoadOutcome
  | text s => .loaded s false
  | outcome o => o
  | released => .emptyScenario

end Yield

namespace Errand
variable {κ α : Type}

/-- A single move on a session. -/
def on (session : Nat) (m : Move κ) : Errand κ m.Reply := Program.ask (A := Deed κ) ⟨session, m⟩

/-- Does something while it is first in line. -/
def locked (session : Nat) (body : Errand κ α) : Errand κ α := do
  let _ ← on session .lock
  let result ← body
  let _ ← on session .unlock
  pure result

/-- Calls an operation on the client of a session, which is connected if need be; a closed session has
    none and gets none. -/
def request (session : Nat) (operation : String) (args : Fields) : Errand κ (Except RemoteError String) := do
  let here ← on session .look
  if here.closed then pure (.error (.closed here.id))
  else if here.client.isSome then on session (.call operation args)
  else
    match ← on session .connect with
    | .error e => pure (.error e)
    | .ok _ => on session (.call operation args)

/-- Calls an operation and logs the call if it succeeded. -/
def logged (session : Nat) (operation : String) (args : Fields) : Errand κ (Except RemoteError String) := do
  match ← request session operation args with
  | .error e => pure (.error e)
  | .ok text =>
    let _ ← on session (.record operation args text)
    pure (.ok text)

/-- Notes that a session is ready if an outcome says so. -/
def settleLoad (session : Nat) (o : LoadOutcome) : Errand κ LoadOutcome := do
  if o.isReady then
    let _ ← on session .markReady
    pure o
  else pure o

/-- Asks for the state again after a load that was answered with `message`. -/
def verify (session : Nat) (state : Json) (message : String) : Errand κ LoadOutcome := do
  match ← logged session saveScenario [] with
  | .error _ => pure (.mismatch state .null)
  | .ok echo => settleLoad session (.ofEcho state message echo)

/-- Loads a state unless the session is ready. -/
def load (session : Nat) (state : Json) (extra : Fields) (check : Bool) :
    Errand κ (Except PoolError LoadOutcome) := do
  let here ← on session .look
  if here.ready then pure (.ok .alreadyInitialized)
  else
    match ← logged session loadScenario (Table.insert Arguments.scenarioKey state extra) with
    | .error e => pure (.error e.toLoad)
    | .ok message =>
      if check then Except.ok <$> verify session state message
      else Except.ok <$> settleLoad session (.loaded message false)

/-- Closes a session for good: its id, and its client if it had one. -/
def retire (session : Nat) : Errand κ (String × Option κ) := do
  let here ← on session .look
  let client ← on session .seal
  pure (here.id, client)

/-- Closes a session, and its client if it has one; that takes place outside the line. -/
def release (session : Nat) : Errand κ (Except PoolError Unit) := do
  match ← locked session (retire session) with
  | (_, none) => pure (.ok ())
  | (id, some client) =>
    let closing ← on session (.close client)
    pure (closing.mapError fun e => .closeFailed id e.message)

/-- The moves that work takes on a session. -/
def ofWork (session : Nat) : Work → Errand κ (Except PoolError Yield)
  | .call operation args => do
    let reply ← locked session (logged session operation args)
    pure ((reply.mapError RemoteError.toPool).map .text)
  | .load state extra check => do
    let reply ← locked session (load session state extra check)
    pure (reply.map .outcome)
  | .release => do
    let reply ← release session
    pure (reply.map fun _ => .released)

end Errand

/-- What the worker and the callers share: the sessions, the log, and the servers' own state. A session
    is named by its place in the list, and stays there when it is closed. -/
structure Shared (ρ κ : Type) where
  sessions : List (Session κ) := []
  log : CallLog := []
  remote : ρ

namespace Shared
variable {ρ κ : Type}

def put (w : Shared ρ κ) (n : Nat) (s : Session κ) : Shared ρ κ :=
  { w with sessions := w.sessions.set n s }

/-- A line without a job, and the job that is first only now. -/
def depart (line : List Nat) (ticket : Nat) : List Nat × List Nat :=
  let rest := line.erase ticket
  (rest, if line.head? = some ticket then rest.head?.toList else [])

/-- Tries a move on a session for the job with a ticket. -/
def move (r : Remote ρ κ) (ticket : Nat) (w : Shared ρ κ) (n : Nat) (s : Session κ) :
    (m : Move κ) → Turn (Shared ρ κ) m.Reply
  | .lock =>
    let line := if s.line.contains ticket then s.line else s.line ++ [ticket]
    let w := w.put n { s with line := line }
    if line.head? = some ticket then .went () w [] else .waits w
  | .unlock =>
    let (line, woken) := depart s.line ticket
    .went () (w.put n { s with line := line }) woken
  | .look => .went s w []
  | .markReady => .went () (w.put n { s with ready := true }) []
  | .connect =>
    match r.connect s.locator w.remote with
    | (.error e, remote) => .went (.error e) { w with remote := remote } []
    | (.ok client, remote) =>
      .went (.ok ()) ({ w with remote := remote }.put n { s with client := some client }) []
  | .call operation args =>
    match s.client with
    | none => .went (.error (.unexpected "client unavailable")) w []
    | some client =>
      if r.stalls client operation w.remote then .waits w
      else
        match r.call client operation args w.remote with
        | ((.replied reply, client), remote) =>
          .went reply ({ w with remote := remote }.put n { s with client := some client }) []
        | ((.died, client), remote) =>
          let (line, woken) := depart s.line ticket
          .died ({ w with remote := remote }.put n { s with client := some client, line := line }) woken
  | .record operation args text =>
    .went () { w with log := w.log.record s.id (.tool operation (.obj args) text) } []
  | .seal => .went s.client (w.put n { s with closed := true, client := none }) []
  | .close client =>
    let (reply, remote) := r.close client w.remote
    .went reply { w with remote := remote } []

/-- Tries a deed for the job with a ticket; a session that is not there lets it wait. -/
def host (r : Remote ρ κ) (ticket : Nat) : Host (Shared ρ κ) (Deed κ) Deed.Reply := fun d w =>
  match w.sessions[d.session]? with
  | none => .waits w
  | some s => move r ticket w d.session s d.move

end Shared
end SessionPool
