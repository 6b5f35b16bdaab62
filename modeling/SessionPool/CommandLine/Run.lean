import SessionPool.Caller
import SessionPool.CommandLine.Invocation
import SessionPool.CommandLine.Machine

/-! Running an invocation: a pool is started from the configuration, the task is done, and the pool is
    shut down. Results are printed as indented JSON; what was printed before a failure stays. -/

namespace SessionPool.CommandLine

/-- Why a task fails. -/
inductive Failure where
  | pool (e : PoolError)
  | text (message : String)
  /-- A result never comes. -/
  | never
  deriving DecidableEq

namespace Failure

/-- The report of a failure; a failure of the file system is named once more as the cause. -/
def report : Failure → String
  | pool (.file cause) =>
    "Error: " ++ (PoolError.file cause).message ++ "\n\nCaused by:\n    " ++ cause.message ++ "\n"
  | pool e => "Error: " ++ e.message ++ "\n"
  | text message => "Error: " ++ message ++ "\n"
  | never => ""

end Failure

/-- The pool a task works with, the files, and what it has printed. -/
structure Desk (ρ κ : Type) where
  pool : Pool ρ κ
  home : Option String
  files : FileTree
  printed : String := ""

/-- A step of a task; the desk stays as it is when the step fails. -/
abbrev Step (ρ κ α : Type) := ExceptT Failure (StateM (Desk ρ κ)) α

namespace Desk
variable {ρ κ α : Type}

/-- Runs a caller. -/
def run (r : Remote ρ κ) (c : Caller α) : Step ρ κ α := do
  let d ← get
  let (progress, pool) := d.pool.run r c
  set { d with pool := pool }
  match progress with
  | .finished a => pure a
  | _ => throw .never

/-- Runs a caller that may fail. -/
def attempt (r : Remote ρ κ) (c : Caller (Except PoolError α)) : Step ρ κ α := do
  match ← run r c with
  | .ok a => pure a
  | .error e => throw (.pool e)

def print (j : Json) : Step ρ κ Unit :=
  modify fun d => { d with printed := d.printed ++ j.pretty ++ "\n" }

/-- The value that is written in a file. -/
def readJson (path : String) : Step ρ κ Json := do
  let d ← get
  match d.files.readText path with
  | .error e => throw (.text ("Failed to read " ++ path ++ ": " ++ e.message))
  | .ok text =>
    match Json.parse text with
    | .error m => throw (.text (m.message text))
    | .ok v => pure v

/-- Loads the state in a file into a session. -/
def loadFile (r : Remote ρ κ) (session path : String) (verify : Bool) : Step ρ κ Unit := do
  let d ← get
  let state ← readJson (Path.expand d.home path)
  let outcome ← attempt r (Caller.load session state verify)
  match outcome with
  | .mismatch _ _ => throw (.text (session ++ ": " ++ outcome.text))
  | _ => pure ()

/-- The name of a tool with its group; a name that has one stays as it is. -/
def qualified (tool : String) : Step ρ κ String := do
  let d ← get
  if tool.toList.contains separator then pure tool
  else
    match d.pool.catalog.qualify? tool with
    | some name => pure name
    | none => throw (.text ("No tool group exposes '" ++ tool ++ "'"))

/-- Adds the log to a file. -/
def flushLog (path : String) : Step ρ κ Unit := do
  let d ← get
  let (written, files) := d.pool.dump d.files (some (Path.expand d.home path))
  set { d with files := files }
  match written with
  | .error e => throw (.pool e)
  | .ok _ => pure ()

/-- Prints the schemas of all tools. -/
def tools : Step ρ κ Unit := do
  let d ← get
  print (.arr d.pool.catalog.schemas)

/-- Calls a tool on a session, after loading a state if one is given. -/
def call (r : Remote ρ κ) (session tool args : String) (scenario : Option String) (verify : Bool)
    (logOut : Option String) : Step ρ κ Unit := do
  if let some path := scenario then loadFile r session path verify
  let name ← qualified tool
  let d ← get
  let result ← attempt r (Caller.invoke d.pool.catalog session name (.text args))
  print result.value
  if let some path := logOut then flushLog path

/-- Makes a session, with a state loaded if one is given. -/
def prepare (r : Remote ρ κ) (scenario : Option String) (verify : Bool) (session : String) :
    Step ρ κ Unit := do
  match scenario with
  | some path => loadFile r session path verify
  | none =>
    let _ ← attempt r (Caller.act (.obtain session))
    pure ()

/-- Prepares sessions, one after the other. -/
def prepareEach (r : Remote ρ κ) (scenario : Option String) (verify : Bool) :
    List String → Step ρ κ Unit
  | [] => pure ()
  | session :: rest => do
    prepare r scenario verify session
    prepareEach r scenario verify rest

/-- Prints the states of sessions. -/
def save (r : Remote ρ κ) (sessions : List String) (scenario : Option String) (verify : Bool) :
    Step ρ κ Unit := do
  prepareEach r scenario verify sessions
  let d ← get
  let saved ← run r (Caller.saveAll d.pool.catalog)
  print (.obj saved)

/-- Does a task. -/
def perform (r : Remote ρ κ) : Task → Step ρ κ Unit
  | .tools => tools
  | .call session tool args scenario verify logOut => call r session tool args scenario verify logOut
  | .save sessions scenario verify => save r sessions scenario verify

end Desk

/-- What comes of a command line. -/
structure Outcome where
  exit : Nat
  printed : String
  /-- The report of a failure; `none` if the words were not understood. -/
  report : Option String
  files : FileTree

/-- What the options of an invocation say of the pool. -/
def Invocation.options (i : Invocation) : Options :=
  let standard : Options := {}
  { standard with
    callTimeout := if i.timeoutSeconds = 0 then none else some (i.timeoutSeconds * Text.second)
    python := i.python.getD standard.python }

namespace Outcome

def failure (f : Failure) (files : FileTree) (printed : String) : Outcome :=
  ⟨1, printed, some f.report, files⟩

/-- What comes of words that ask for nothing to run. -/
def ofHalt (files : FileTree) : Halt → Outcome
  | .usage => ⟨2, "", none, files⟩
  | .version => ⟨0, "toolpool 0.1.0\n", some "", files⟩
  | .help => ⟨0, "", some "", files⟩

end Outcome

/-- Runs an invocation over servers that are in some state at first. -/
def Invocation.run {ρ κ : Type} (i : Invocation) (r : Remote ρ κ) (s : ρ) (home : Option String)
    (files : FileTree) : Outcome :=
  match Config.load files (Path.expand home i.config) with
  | .error e => .failure (.pool e) files ""
  | .ok c =>
    match (Pool.start r c i.options s).1 with
    | .error e => .failure (.pool e) files ""
    | .ok pool =>
      let (result, d) := (Desk.perform r i.task).run.run { pool := pool, home := home, files := files }
      let (_, _) := d.pool.run r (Caller.shutdown i.options.shutdownTimeout)
      match result with
      | .ok () => ⟨0, d.printed, some "", d.files⟩
      | .error f => .failure f d.files d.printed

/-- Runs a command line on a machine. -/
def run (m : Machine) (home : Option String) (words : List String) : Outcome :=
  match Invocation.parse words with
  | .error h => .ofHalt m.files h
  | .ok i => i.run (m.remote i.options.python) () home m.files

end SessionPool.CommandLine
