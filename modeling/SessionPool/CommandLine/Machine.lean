import SessionPool.Rehearsal.House

/-! Machines: where servers are launched as processes. A program named with a slash is looked for where
    it says, any other among the launchers, each of which runs the server that its last argument names.
    What is said to a process and what it replies is carried as text. -/

namespace SessionPool.CommandLine
open Rehearsal

/-- The files, which of them are servers, by the keys of their places, and the launchers. -/
structure Machine where
  servers : Table Script := []
  launchers : List String := []
  files : FileTree := []

/-- A process that serves. -/
structure Process where
  player : Player
  /-- The calls of each operation so far. -/
  calls : Table Nat := []
  exited : Bool := false

/-- A value after it was written and read again. -/
def carried (j : Json) : Json := (Json.parse j.compact).toOption.getD j

/-- Arguments after they were written and read again. -/
def carriedFields (args : Fields) : Fields := (carried (.obj args)).fields?.getD args

namespace Process

/-- What a client is told whose process is gone. -/
def gone : RemoteError := .unexpected "Transport closed"

/-- How a failure of the server comes back: it refuses, or the process exits. -/
def failed (p : Process) : RemoteError → Except RemoteError String × Process
  | .closed _ => (.error gone, { p with exited := true })
  | e => (.error (.rejected e.message), p)

/-- The reply to a call. -/
def call (p : Process) (operation : String) (args : Fields) : Except RemoteError String × Process :=
  if p.exited then (.error gone, p)
  else
    match Table.get? operation p.player.script.replies with
    | some reply => (Reply.decode (carried reply), p)
    | none =>
      let n := (Table.get? operation p.calls).getD 0
      let (answer, player) := p.player.play operation (carriedFields args) n
      let p := { p with player := player, calls := p.calls.insert operation (n + 1) }
      match answer with
      | .died => (.error gone, { p with exited := true })
      | .replied (.ok text) => (.ok text, p)
      | .replied (.error e) => p.failed e

/-- The operations that a process lists. -/
def list (p : Process) : Except RemoteError (List Operation) × Process :=
  if p.exited then (.error gone, p)
  else
    ((p.player.script.operationsListed.mapError fun e => .rejected e.message).map fun ops =>
      ops.map fun o => { o with input := carried o.input }, p)

end Process

namespace Machine

/-- Puts a server at a path; a file that is there already stays as it is. -/
def install (m : Machine) (path : String) (s : Script) : Machine :=
  let files := match m.files.read path with
    | .ok _ => m.files
    | .error _ => m.files.put path (.file ByteArray.empty)
  match files.locate path with
  | .error _ => m
  | .ok p => { m with files := files, servers := m.servers.insert (FileTree.key p) s }

/-- A machine with servers at some paths. -/
def ofScripts (scripts : Table Script) (launchers : List String) (files : FileTree) : Machine :=
  scripts.foldl (fun m s => m.install s.1 s.2) { launchers := launchers, files := files }

/-- A machine with servers at some paths whose scripts are written as files. -/
def ofJson (scripts : Table Json) (launchers : List String) (files : FileTree) : Machine :=
  ofScripts (scripts.map fun s => (s.1, .ofJson (carried s.2))) launchers files

/-- The server that a path leads to, or why there is none to be run. -/
def find (m : Machine) (path : String) : Except FileError Script :=
  match m.files.locate path with
  | .error e => .error e
  | .ok p =>
    match m.files.node? p with
    | none => .error .notFound
    | some .dir => .error .denied
    | some (.file _) =>
      if FileTree.endsOpen path then .error .notDirectory
      else
        match Table.get? (FileTree.key p) m.servers with
        | some s => .ok s
        | none => .error .denied

/-- The process of a server with its arguments. -/
def process (s : Script) (path : String) (argv : List String) : Process :=
  { player := { place := path, script := s, argv := argv } }

/-- The server that the last of some words leads to, with that word. -/
def served? (m : Machine) (words : List String) : Option (Script × String) := do
  let path ← words.getLast?
  let s ← (m.find path).toOption
  pure (s, path)

/-- What is said of a program that ends before it has answered. -/
def noAnswer : String := "connection closed: initialize response"

/-- Launches a program; the failure is said in words. -/
def launch (m : Machine) (c : Command) : Except String Process :=
  if !c.isSound then .error "nul byte found in provided data"
  else if c.program.toList.contains '/' then
    match m.find c.program with
    | .ok s => .ok (process s c.program c.args)
    | .error e => .error e.message
  else if m.launchers.contains c.program then
    match m.served? c.args with
    | some (s, path) => .ok (process s path (c.program :: c.args))
    | none => .error noAnswer
  else .error FileError.notFound.message

/-- Why the server of a locator cannot be reached. -/
def unreachable (l : Locator) (why : String) : RemoteError := .connect (l.path ++ ": " ++ why)

/-- The servers of a machine that has none: what is launched there does not answer. -/
def silent {ρ κ : Type} (m : Machine) (python : String) : Remote ρ κ where
  connect l s :=
    match m.launch (Command.ofLocator python l) with
    | .error e => (.error (unreachable l e), s)
    | .ok _ => (.error (unreachable l noAnswer), s)
  list client s := ((.ok [], client), s)
  call client _ _ s := ((.died, client), s)
  close _ s := (.ok (), s)
  stalls _ _ _ := false

/-- The servers of a machine. -/
def remote (m : Machine) (python : String) : Remote Unit Process where
  connect l _ :=
    ((m.launch (Command.ofLocator python l)).mapError (unreachable l), ())
  list p _ := (p.list, ())
  call p operation args _ :=
    let (reply, p) := p.call operation args
    ((.replied reply, p), ())
  close _ _ := (.ok (), ())
  stalls _ _ _ := false

end Machine
end SessionPool.CommandLine
