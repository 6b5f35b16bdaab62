import SessionPool.Session

/-! The pool: the catalog, the registry of live sessions, what the worker shares with the callers, and
    the worker. The registry names each live session by its id; removing an id takes the session away
    from later callers, while work that already has it goes on. Callers act on the pool one action at a
    time, so that several callers and the worker interleave at their actions. -/

namespace SessionPool

/-- A pool of sessions. -/
structure Pool (ρ κ : Type) where
  catalog : Catalog
  options : Options
  registry : Table Nat := []
  shared : Shared ρ κ
  worker : Worker (Deed κ) Deed.Reply Yield := {}

/-- What a caller does with the pool. -/
inductive Ask where
  /-- Looks a session up and makes it if there is none. -/
  | obtain (session : String)
  | markReady (session : String)
  /-- Sends work on a session to the worker. -/
  | submit (session : Nat) (w : Work)
  /-- Waits for the result of work. -/
  | await (ticket : Nat)
  /-- Takes a session out of the registry. -/
  | remove (session : String)
  /-- Takes all sessions out of the registry. -/
  | drain
  /-- The ids of the live sessions. -/
  | ids
  | clearLog
  /-- Tells the worker to stop; the reply is whether someone waits for its end already. -/
  | stop
  /-- Waits for the end of the worker, for so many nanoseconds; the reply is whether it came. -/
  | gone (within : Nat)

def Ask.Reply : Ask → Type
  | .obtain _ => Except PoolError (Nat × Bool)
  | .markReady _ => Unit
  | .submit _ _ => Except PoolError Nat
  | .await _ => Except PoolError Yield
  | .remove _ => Option Nat
  | .drain => Table Nat
  | .ids => List String
  | .clearLog => Unit
  | .stop => Bool
  | .gone _ => Bool

namespace Pool
variable {ρ κ : Type}

/-- A pool over a catalog, with no session yet. -/
def ofCatalog (c : Catalog) (o : Options) (remote : ρ) : Pool ρ κ :=
  { catalog := c, options := o, shared := { remote := remote } }

/-- A pool for a configuration, whose servers are asked for their operations first; that is the first
    job of the worker. -/
def start (r : Remote ρ κ) (c : Config) (o : Options) (remote : ρ) : Except PoolError (Pool ρ κ) × ρ :=
  match c.validate with
  | .error e => (.error e, remote)
  | .ok () =>
    let (found, remote) := (Discovery.ofConfig c).run r.answer remote
    (found.map fun catalog => { ofCatalog catalog o remote with worker := .afterOne }, remote)

/-- The live session with an id. -/
def session? (p : Pool ρ κ) (id : String) : Option (Session κ) :=
  (Table.get? id p.registry).bind fun n => p.shared.sessions[n]?

/-- Whether the session at a place is ready. -/
def isReady (p : Pool ρ κ) (n : Nat) : Bool := (p.shared.sessions[n]?.map Session.ready).getD false

/-- The live sessions, with whether each is ready. -/
def readiness (p : Pool ρ κ) : Table Bool := p.registry.map fun r => (r.1, p.isReady r.2)

/-- Whether a session, by its place, is the live one with its id. -/
def isLive (p : Pool ρ κ) (n : Nat) : Bool :=
  match p.shared.sessions[n]? with
  | none => false
  | some s => Table.get? s.id p.registry = some n

/-- Notes a turn of a chat in the log. -/
def chat (p : Pool ρ κ) (session user assistant : String) : Pool ρ κ :=
  { p with shared := { p.shared with log := p.shared.log.record session (.chat user assistant) } }

/-- Adds the log to a file, to the usual one if none is named. -/
def dump (p : Pool ρ κ) (files : FileTree) (path : Option String) : Except PoolError Nat × FileTree :=
  p.shared.log.flush files (path.getD CallLog.defaultPath)

/-- The live session with an id, by its place, and whether it is ready; a session is made if there is
    none, unless its group is not in the catalog. -/
def obtain (p : Pool ρ κ) (id : String) : Except PoolError (Nat × Bool) × Pool ρ κ :=
  match Table.get? id p.registry with
  | some n => (.ok (n, p.isReady n), p)
  | none =>
    let group := (SessionKey.parse id).group
    match p.catalog.locator? group with
    | none => (.error (.unknownGroup group), p)
    | some l =>
      let n := p.shared.sessions.length
      (.ok (n, false), { p with
        registry := p.registry.insert id n
        shared := { p.shared with sessions := p.shared.sessions ++ [{ id := id, locator := l }] } })

/-- Marks the live session with an id ready, if there is one. -/
def markReady (p : Pool ρ κ) (id : String) : Pool ρ κ :=
  match Table.get? id p.registry with
  | none => p
  | some n =>
    match p.shared.sessions[n]? with
    | none => p
    | some s => { p with shared := p.shared.put n { s with ready := true } }

/-- Lets the worker go on until it rests. -/
def settle (r : Remote ρ κ) (p : Pool ρ κ) : Pool ρ κ :=
  let (worker, shared) := p.worker.settle (Shared.host r) p.shared
  { p with worker := worker, shared := shared }

/-- Tries an action of a caller; waiting goes only when what is waited for is there. -/
def answer (p : Pool ρ κ) : (a : Ask) → Turn (Pool ρ κ) a.Reply
  | .obtain id =>
    let (reply, p) := p.obtain id
    .went reply p []
  | .markReady id => .went () (p.markReady id) []
  | .submit n w =>
    match p.worker.submit (Errand.ofWork n w) with
    | (none, worker) => .went (.error .workerClosed) { p with worker := worker } []
    | (some ticket, worker) => .went (.ok ticket) { p with worker := worker } []
  | .await ticket =>
    match p.worker.result? ticket with
    | none => .waits p
    | some result => .went result p []
  | .remove id => .went (Table.get? id p.registry) { p with registry := p.registry.erase id } []
  | .drain => .went p.registry { p with registry := [] } []
  | .ids => .went (Table.keys p.registry) p []
  | .clearLog => .went () { p with shared := { p.shared with log := [] } } []
  | .stop =>
    let (joined, worker) := p.worker.leave
    .went joined { p with worker := worker } []
  | .gone _ => if p.worker.ended then .went true p [] else .waits p

/-- Whether an action waits for the worker. -/
def waits : Ask → Bool
  | .await _ => true
  | .gone _ => true
  | _ => false

/-- What a caller does who gives up waiting. -/
def giveUp (p : Pool ρ κ) : (a : Ask) → Turn (Pool ρ κ) a.Reply
  | .await _ =>
    match p.options.callTimeout with
    | some nanos => .went (.error (.timeout nanos)) p []
    | none => .waits p
  | .gone _ => .went false p []
  | a => p.answer a

/-- Tries an action of a caller while the worker goes on. A patient caller waits as long as it takes. -/
def host (r : Remote ρ κ) (patient : Bool) : Host (Pool ρ κ) Ask Ask.Reply := fun a p =>
  if waits a then
    let p := p.settle r
    match p.answer a with
    | .waits p => if patient then .waits p else p.giveUp a
    | turn => turn
  else p.answer a

end Pool
end SessionPool
