import SessionPool.Json.Value
import SessionPool.Worker

/-! Drills: a bare worker and jobs made up for it. A job may first wait for a gate, then notes that it
    ran, and then dies, fails or gives a value; or it keeps the thread busy until it is freed. -/

namespace SessionPool.Rehearsal

/-- An action of a job made up for a drill. -/
inductive Exercise where
  | pass (gate : String)
  | note (name : String)
  | hold
  | die

def Exercise.Reply (_ : Exercise) : Type := Unit

/-- What the jobs of a drill share. -/
structure Ground where
  opened : List String := []
  ran : List String := []
  /-- Whether jobs may keep the thread busy. -/
  holding : Bool := false

/-- How a job ends. -/
inductive Ending where
  | dies
  /-- It waits for work it submits itself, which is refused. -/
  | waitsForItself
  | fails (e : PoolError)
  | gives (v : Json)

/-- A job of a drill. -/
abbrev Routine := Program Exercise Exercise.Reply (Except PoolError Json)

namespace Routine

def step (e : Exercise) : Program Exercise Exercise.Reply Unit := Program.ask e

def finish : Ending → Routine
  | .dies => do
    step .die
    pure (.error .workerClosed)
  | .waitsForItself => pure (.error Worker.selfWait)
  | .fails e => pure (.error e)
  | .gives v => pure (.ok v)

/-- The job with a name, behind a gate if there is one. -/
def of (name : String) (gate : Option String) (ending : Ending) : Routine := do
  match gate with
  | some g =>
    step (.pass g)
    step (.note name)
    finish ending
  | none =>
    step (.note name)
    finish ending

/-- The job that keeps the thread busy. -/
def holding : Routine := do
  step .hold
  pure (.ok (.str "unblocked"))

end Routine

/-- Tries an action on the ground. -/
def Ground.host : Host Ground Exercise Exercise.Reply := fun e g =>
  match e with
  | .pass gate => if g.opened.contains gate then .went () g [] else .waits g
  | .note name => .went () { g with ran := g.ran ++ [name] } []
  | .hold => if g.holding then .occupies g else .went () g []
  | .die => .died g []

/-- A worker, the ground, and the tickets that are kept by name. -/
structure Drill where
  worker : Worker Exercise Exercise.Reply Json := {}
  ground : Ground := {}
  tickets : Table Nat := []

namespace Drill

/-- Lets the worker go on until it rests. -/
def settle (d : Drill) : Drill :=
  let (worker, ground) := d.worker.settle (fun _ => Ground.host) d.ground
  { d with worker := worker, ground := ground }

/-- Sends a job and lets the worker go on. -/
def send (d : Drill) (job : Routine) : Option Nat × Drill :=
  let (ticket, worker) := d.worker.submit job
  (ticket, settle { d with worker := worker })

/-- Waits for a job, for so many nanoseconds at most; `none` if that never ends. -/
def await (d : Drill) (ticket : Nat) (deadline : Option Nat) : Option (Except PoolError Json) :=
  match d.worker.result? ticket, deadline with
  | some r, _ => some r
  | none, some nanos => some (.error (.timeout nanos))
  | none, none => none

/-- Sends a job and waits for it. -/
def submit (d : Drill) (job : Routine) (deadline : Option Nat) : Option (Except PoolError Json) × Drill :=
  match d.send job with
  | (none, d) => (some (.error .workerClosed), d)
  | (some ticket, d) => (d.await ticket deadline, d)

/-- Sends a job and keeps its ticket. -/
def spawn (d : Drill) (name : String) (job : Routine) : Except PoolError Unit × Drill :=
  match d.send job with
  | (none, d) => (.error .workerClosed, d)
  | (some ticket, d) => (.ok (), { d with tickets := d.tickets.insert name ticket })

/-- Waits for a job whose ticket was kept, and forgets the ticket. -/
def wait (d : Drill) (name : String) (deadline : Option Nat) : Option (Except PoolError Json) × Drill :=
  match Table.get? name d.tickets with
  | none => (some (.ok .null), d)
  | some ticket => (d.await ticket deadline, { d with tickets := d.tickets.erase name })

/-- Sends a job that keeps the thread busy. -/
def block (d : Drill) (name : String) : Except PoolError Unit × Drill :=
  spawn { d with ground := { d.ground with holding := true } } name .holding

/-- Frees the thread. -/
def unblock (d : Drill) : Drill := settle { d with ground := { d.ground with holding := false } }

/-- Whether a job waits for a gate. -/
def isBehind (gate : String) : Job Exercise Exercise.Reply Json → Bool
  | .pending (.act (.pass g) _) => g = gate
  | _ => false

/-- Opens a gate for good. -/
def openGate (d : Drill) (gate : String) : Drill :=
  settle { d with
    ground := { d.ground with opened := gate :: d.ground.opened }
    worker := d.worker.rouse (isBehind gate) }

/-- Shuts the worker down: whether its end was seen. -/
def shutdown (d : Drill) : Bool × Drill :=
  let (joined, worker) := d.worker.leave
  let d := settle { d with worker := worker }
  (joined || d.worker.ended, d)

end Drill
end SessionPool.Rehearsal
