import SessionPool.Caller
import SessionPool.Rehearsal.House

/-! The stage: a pool over scripted servers, and its callers. One caller has the stage to itself; others
    are put aside when they wait and go on when they can. Time passes only when someone waits it out,
    or a little when a caller is put aside; a caller with a deadline gives up when it has waited that
    long. -/

namespace SessionPool.Rehearsal

/-- A caller put aside: what is left to do, and how long it has waited. -/
structure Actor (α : Type) where
  rest : Caller α
  waited : Nat := 0

/-- A pool, the callers put aside by name, and sessions kept by name. A caller whose name is given to
    another goes on as a stray. -/
structure Stage (α : Type) where
  pool : Pool House Player
  strays : List (Actor α) := []
  actors : Table (Actor α) := []
  kept : Table Nat := []

/-- What a caller may still do: the time that passes meanwhile, and the time it has waited. -/
structure Patience where
  time : Nat
  waited : Nat := 0

/-- Tries an action of a caller that gives up when its deadline is met within the time that passes. -/
def Patience.host : Host (Pool House Player × Patience) Ask Ask.Reply := fun a (p, t) =>
  match Pool.host House.remote true a p with
  | .went reply p woken => .went reply (p, if Pool.waits a then { t with waited := 0 } else t) woken
  | .died p woken => .died (p, t) woken
  | .occupies p => .occupies (p, t)
  | .waits p =>
    match p.options.callTimeout with
    | none => .waits (p, t)
    | some deadline =>
      if deadline ≤ t.waited + t.time then
        match p.giveUp a with
        | .went reply p woken => .went reply (p, ⟨t.time - (deadline - t.waited), 0⟩) woken
        | _ => .waits (p, t)
      else .waits (p, ⟨0, t.waited + t.time⟩)

namespace Stage
variable {α β : Type}

/-- Lets a caller that was put aside go on while time passes. -/
def goOn (time : Nat) (p : Pool House Player) (a : Actor α) : Actor α × Pool House Player :=
  let step := a.rest.advance Patience.host (p, ⟨time, a.waited⟩)
  let (p, t) := step.state
  match step.progress with
  | .finished r => (⟨.done r, 0⟩, p)
  | .waits rest => (⟨rest, t.waited⟩, p)
  | .occupies rest => (⟨rest, t.waited⟩, p)
  | .died => (a, p)

/-- Lets callers that were put aside go on while time passes, one after the other. -/
def passEach (time : Nat) (p : Pool House Player) : List (Actor α) → List (Actor α) × Pool House Player
  | [] => ([], p)
  | a :: rest =>
    let (a, p) := goOn time p a
    let (rest, p) := passEach time p rest
    (a :: rest, p)

/-- Lets time pass: strays go on first, then the others in the order of their names. -/
def pass (time : Nat) (st : Stage α) : Stage α :=
  let (strays, p) := passEach time st.pool st.strays
  let (actors, p) := passEach time p (st.actors.map (·.2))
  { st with pool := p, strays := strays, actors := (st.actors.map (·.1)).zip actors }

/-- Tries an action of the caller that has the stage; it waits out its deadlines, of which it has waited
    some time already. -/
def host : Host (Stage α × Nat) Ask Ask.Reply := fun a (st, waited) =>
  match Pool.host House.remote true a st.pool with
  | .went reply p woken => .went reply ({ st with pool := p }, if Pool.waits a then 0 else waited) woken
  | .died p woken => .died ({ st with pool := p }, waited) woken
  | .occupies p => .occupies ({ st with pool := p }, waited)
  | .waits p =>
    match p.options.callTimeout with
    | none => .waits ({ st with pool := p }, waited)
    | some deadline =>
      let st := pass (deadline - waited) { st with pool := p }
      match st.pool.giveUp a with
      | .went reply p woken => .went reply ({ st with pool := p }, 0) woken
      | _ => .waits (st, waited)

/-- Runs a caller that has waited for some time already: its result, if it ever gets one. -/
def finish (waited : Nat) (c : Caller β) (st : Stage α) : Option β × Stage α :=
  let step := c.advance host (st, waited)
  match step.progress with
  | .finished r => (some r, pass 0 step.state.1)
  | _ => (none, step.state.1)

/-- Runs a caller. -/
def perform (c : Caller β) (st : Stage α) : Option β × Stage α := finish 0 c st

/-- How long it takes to put a caller aside, in nanoseconds. -/
def settling : Nat := 40 * Text.millisecond

/-- Lets a caller run until it waits, and puts it aside under a name. -/
def spawn (name : String) (c : Caller α) (st : Stage α) : Stage α :=
  let (a, pool) := goOn 0 st.pool ⟨c, 0⟩
  pass settling { st with
    pool := pool
    strays := st.strays ++ (Table.get? name st.actors).toList
    actors := st.actors.insert name a }

/-- Waits for a caller that was put aside. -/
def join (name : String) (st : Stage α) : Option α × Stage α :=
  match Table.get? name st.actors with
  | none => (none, st)
  | some a => finish a.waited a.rest { st with actors := st.actors.erase name }

/-- Whether a job waits for a gate in front of an operation. -/
def isBehind (gate : String) (w : Shared House Player) : Job (Deed Player) Deed.Reply Yield → Bool
  | .pending (.act ⟨n, .call operation _⟩ _) =>
    (do (← (← w.sessions[n]?).client).script.gate? operation) = some gate
  | _ => false

/-- Opens a gate, and lets everything go on that it held up. -/
def openGate (gate : String) (st : Stage α) : Stage α :=
  let p := st.pool
  let p := { p with
    shared := { p.shared with remote := p.shared.remote.openGate gate }
    worker := p.worker.rouse (isBehind gate p.shared) }
  pass 0 { st with pool := p.settle House.remote }

end Stage
end SessionPool.Rehearsal
