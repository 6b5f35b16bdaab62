import SessionPool.Caller
import SessionPool.Proofs.Effect

/-! Interleaving: any number of callers of one pool and all jobs of its worker, which take their steps in
    any order. A step of a caller is one action on the pool, a step of a job one move on its session. A
    move that asks a server is two steps, so that everything else may go on while the server has not
    answered yet, and what the servers share may change at any time. A run keeps what has happened; the
    worker with its turns and rounds makes some of these runs, and a schedule makes each of them. -/

namespace SessionPool

/-- What a caller comes for. -/
inductive Order where
  | obtain (session : String)
  | invoke (session name : String) (args : Arguments)
  | load (session : String) (state : Json) (extra : Fields) (verify : Bool)
  | close (session : String)
  | closeAll
  | saveAll
  | shutdown (within : Nat)

/-- What a caller gets. -/
inductive Response where
  | found (result : Except PoolError (Nat × Bool))
  | result (result : Except PoolError Normalized)
  | outcome (result : Except PoolError LoadOutcome)
  | closed (result : Except PoolError Bool)
  | report (r : CloseReport)
  | states (t : Table Json)
  | ended (r : ShutdownReport)

def Order.program (c : Catalog) : Order → Caller Response
  | obtain session => do return .found (← Caller.act (.obtain session))
  | invoke session name args => do return .result (← Caller.invoke c session name args)
  | load session state extra verify => do return .outcome (← Caller.loadWith session state extra verify)
  | close session => do return .closed (← Caller.close session)
  | closeAll => do return .report (← Caller.closeAll)
  | saveAll => do return .states (← Caller.saveAll c)
  | shutdown within => do return .ended (← Caller.shutdown within)

namespace Caller
variable {α β : Type} {a b : Ask}

/-- Whatever the replies, a caller does not take an action. -/
def Avoids (a : Ask) : Program Ask Ask.Reply α → Prop
  | Program.done _ => True
  | Program.act b next => b ≠ a ∧ ∀ reply, Avoids a (next reply)

theorem Avoids.bind {f : α → Caller β} : ∀ {p : Caller α}, Avoids a p → (∀ x, Avoids a (f x)) → Avoids a (p >>= f)
  | Program.done x, _, hf => hf x
  | Program.act _ _, h, hf => ⟨h.1, fun reply => (h.2 reply).bind hf⟩

theorem avoids_act (h : b ≠ a) : Avoids a (act b) := ⟨h, fun _ => trivial⟩

end Caller

/-- What a job does next. -/
inductive Doing (κ : Type) where
  /-- Stands in line behind others. -/
  | queued
  /-- Makes a move that asks no server. -/
  | moved (m : Move κ)
  /-- Asks the server by a move. -/
  | sent (m : Move κ)
  /-- Gets the server's word on a move. -/
  | heard (m : Move κ) (word : Word κ)
  /-- Ends with a result. -/
  | yielded (result : Except PoolError Yield)

/-- What happens in a step. -/
inductive Event (κ : Type) where
  | came (c : Order)
  | asked (caller : Nat) (a : Ask) (reply : a.Reply)
  /-- A caller stops waiting at its deadline. -/
  | gaveUp (caller : Nat) (a : Ask)
  | chatted (session user assistant : String)
  /-- The worker reads a message. -/
  | read
  | work (session ticket : Nat) (d : Doing κ)
  /-- Something outside the pool changes, or the worker arranges its turns. -/
  | other

/-- The work that an action sends to the worker, with its session. -/
def Ask.sends : (a : Ask) → a.Reply → List (Nat × Work)
  | .submit n w, .ok _ => [(n, w)]
  | _, _ => []

/-- A pool with its callers. -/
structure Scene (ρ κ : Type) where
  pool : Pool ρ κ
  callers : List (Caller Response) := []
  /-- The work that was sent, with its sessions, by tickets. -/
  works : List (Nat × Work) := []
  /-- The jobs that wait for a word of a server. -/
  flying : List Nat := []

/-- A pool where a job has gone on. -/
def Pool.withJob {ρ κ : Type} (p : Pool ρ κ) (t : Nat) (job : Job (Deed κ) Deed.Reply Yield)
    (w : Shared ρ κ) : Pool ρ κ :=
  { p with shared := w, worker := { p.worker with jobs := p.worker.jobs.set t job } }

/-- What an action of a caller does, case by case. -/
inductive Pool.Answered {ρ κ : Type} (p : Pool ρ κ) : (a : Ask) → a.Reply → Pool ρ κ → Prop where
  | found {id : String} {n : Nat} (h : Table.get? id p.registry = some n) :
      Answered p (.obtain id) (.ok (n, p.isReady n)) p
  | unknown {id : String} (e : PoolError) (h : Table.get? id p.registry = none) :
      Answered p (.obtain id) (.error e) p
  | made {id : String} (locator : Locator) (h : Table.get? id p.registry = none) :
      Answered p (.obtain id) (.ok (p.shared.sessions.length, false)) { p with
        registry := p.registry.insert id p.shared.sessions.length
        shared := { p.shared with
          sessions := p.shared.sessions ++ [{ id := id, locator := locator }] } }
  | unmarked {id : String} (h : ∀ n s, Table.get? id p.registry = some n → p.shared.sessions[n]? ≠ some s) :
      Answered p (.markReady id) () p
  | marked {id : String} {n : Nat} {s : Session κ} (h : Table.get? id p.registry = some n)
      (hs : p.shared.sessions[n]? = some s) :
      Answered p (.markReady id) () { p with shared := p.shared.put n { s with ready := true } }
  | refused {n : Nat} {w : Work} (h : p.worker.ended = true) :
      Answered p (.submit n w) (.error .workerClosed) p
  | sent {n : Nat} {w : Work} (h : p.worker.ended = false) :
      Answered p (.submit n w) (.ok p.worker.jobs.length) { p with worker := { p.worker with
        jobs := p.worker.jobs ++ [.pending (Errand.ofWork n w)]
        inbox := p.worker.inbox ++ [.run p.worker.jobs.length] } }
  | awaited {t : Nat} {result : Except PoolError Yield} (h : p.worker.result? t = some result) :
      Answered p (.await t) result p
  | removed {id : String} {found : Option Nat} (h : Table.get? id p.registry = found) :
      Answered p (.remove id) found { p with registry := p.registry.erase id }
  | drained : Answered p .drain p.registry { p with registry := [] }
  | ids : Answered p .ids (Table.keys p.registry) p
  | cleared : Answered p .clearLog () { p with shared := { p.shared with log := [] } }
  | stopped {worker : Worker (Deed κ) Deed.Reply Yield} (hjobs : worker.jobs = p.worker.jobs)
      (hended : worker.ended = p.worker.ended) : Answered p .stop p.worker.joined { p with worker := worker }
  | gone {within : Nat} (h : p.worker.ended = true) : Answered p (.gone within) true p

theorem Pool.answered {ρ κ : Type} {p p' : Pool ρ κ} {a : Ask} {reply : a.Reply} {woken : List Nat}
    (h : p.answer a = .went reply p' woken) : p.Answered a reply p' := by
  cases a with
  | obtain id =>
    simp only [Pool.answer, Pool.obtain] at h
    split at h
    · cases h; exact .found ‹_›
    · split at h
      · cases h; exact .unknown _ ‹_›
      · cases h; exact .made _ ‹_›
  | markReady id =>
    simp only [Pool.answer, Pool.markReady] at h
    cases h
    split
    · rename_i hget
      exact .unmarked fun n s hn => by rw [hget] at hn; cases hn
    · rename_i n hget
      split
      · rename_i hs
        refine .unmarked fun m s hm => ?_
        rw [hget] at hm
        cases hm
        rw [hs]
        nofun
      · exact .marked hget ‹_›
  | submit n w =>
    simp only [Pool.answer, Worker.submit] at h
    cases hended : p.worker.ended with
    | true =>
      simp only [hended, if_true] at h
      cases h
      exact .refused hended
    | false =>
      simp only [hended, Bool.false_eq_true, if_false] at h
      cases h
      rw [← hended]
      exact .sent hended
  | await t =>
    simp only [Pool.answer] at h
    split at h
    · cases h
    · cases h; exact .awaited ‹_›
  | remove id => cases h; exact .removed rfl
  | drain => cases h; exact .drained
  | ids => cases h; exact .ids
  | clearLog => cases h; exact .cleared
  | stop =>
    cases h
    refine .stopped ?_ ?_ <;> (simp only [Worker.sendStop]; split <;> rfl)
  | gone within =>
    simp only [Pool.answer] at h
    split at h
    · cases h; exact .gone ‹_›
    · cases h

/-- Who stops waiting changes nothing. -/
theorem Pool.eq_of_giveUp {ρ κ : Type} {p p' : Pool ρ κ} {a : Ask} {reply : a.Reply} {woken : List Nat}
    (hw : Pool.waits a = true) (h : p.giveUp a = .went reply p' woken) : p' = p := by
  cases a with
  | await t =>
    simp only [Pool.giveUp] at h
    split at h <;> cases h
    rfl
  | gone within => cases h; rfl
  | _ => cases hw

namespace Scene
variable {ρ κ : Type}

/-- A pool without sessions, and nobody there yet. -/
def start (c : Catalog) (o : Options) (remote : ρ) : Scene ρ κ := { pool := .ofCatalog c o remote }

/-- A job that was accepted and has something left to do. -/
def HasJob (S : Scene ρ κ) (t : Nat) (p : Errand κ (Except PoolError Yield)) : Prop :=
  S.pool.worker.jobs[t]? = some (.pending p) ∧ Message.run t ∉ S.pool.worker.inbox

/-- A step of anyone. -/
inductive Step (r : Remote ρ κ) (S : Scene ρ κ) : Event κ → Scene ρ κ → Prop where
  | come (c : Order) : Step r S (.came c) { S with callers := S.callers ++ [c.program S.pool.catalog] }
  | ask {i : Nat} {a : Ask} {next : a.Reply → Caller Response} {reply : a.Reply} {p : Pool ρ κ}
      {woken : List Nat} (hi : S.callers[i]? = some (Program.act a next))
      (ha : S.pool.answer a = .went reply p woken) :
      Step r S (.asked i a reply)
        { S with pool := p, callers := S.callers.set i (next reply), works := S.works ++ a.sends reply }
  | giveUp {i : Nat} {a : Ask} {next : a.Reply → Caller Response} {reply : a.Reply} {p : Pool ρ κ}
      {woken : List Nat} (hi : S.callers[i]? = some (Program.act a next)) (hw : Pool.waits a = true)
      (ha : S.pool.giveUp a = .went reply p woken) :
      Step r S (.gaveUp i a) { S with pool := p, callers := S.callers.set i (next reply) }
  | chat (session user assistant : String) :
      Step r S (.chatted session user assistant) { S with pool := S.pool.chat session user assistant }
  | read {m : Message} {rest : List Message} (hm : S.pool.worker.inbox = m :: rest) :
      Step r S .read
        { S with pool := { S.pool with worker := { S.pool.worker with inbox := rest }.take m } }
  | queue {t : Nat} {d : Deed κ} {next : d.Reply → Errand κ (Except PoolError Yield)} {w : Shared ρ κ}
      (ht : S.HasJob t (.act d next)) (hd : d.move.isRemote = false)
      (hw : Shared.host r t d S.pool.shared = .waits w) :
      Step r S (.work d.session t .queued) { S with pool := { S.pool with shared := w } }
  | move {t : Nat} {d : Deed κ} {next : d.Reply → Errand κ (Except PoolError Yield)} {reply : d.Reply}
      {w : Shared ρ κ} {woken : List Nat} (ht : S.HasJob t (.act d next)) (hd : d.move.isRemote = false)
      (hw : Shared.host r t d S.pool.shared = .went reply w woken) :
      Step r S (.work d.session t (.moved d.move))
        { S with pool := S.pool.withJob t (.pending (next reply)) w }
  | send {t : Nat} {d : Deed κ} {next : d.Reply → Errand κ (Except PoolError Yield)}
      (ht : S.HasJob t (.act d next)) (hd : d.move.isRemote = true) (hf : t ∉ S.flying) :
      Step r S (.work d.session t (.sent d.move)) { S with flying := t :: S.flying }
  | hear {t : Nat} {d : Deed κ} {next : d.Reply → Errand κ (Except PoolError Yield)} {reply : d.Reply}
      {w : Shared ρ κ} {woken : List Nat} {s : Session κ} {word : Word κ} {remote : ρ}
      (ht : S.HasJob t (.act d next)) (hf : t ∈ S.flying)
      (hs : S.pool.shared.sessions[d.session]? = some s)
      (hr : r.word s S.pool.shared.remote d.move = some (word, remote))
      (hw : Shared.host r t d S.pool.shared = .went reply w woken) :
      Step r S (.work d.session t (.heard d.move word))
        { S with pool := S.pool.withJob t (.pending (next reply)) w, flying := S.flying.erase t }
  | die {t : Nat} {d : Deed κ} {next : d.Reply → Errand κ (Except PoolError Yield)}
      {w : Shared ρ κ} {woken : List Nat} {s : Session κ} {word : Word κ} {remote : ρ}
      (ht : S.HasJob t (.act d next)) (hf : t ∈ S.flying)
      (hs : S.pool.shared.sessions[d.session]? = some s)
      (hr : r.word s S.pool.shared.remote d.move = some (word, remote))
      (hw : Shared.host r t d S.pool.shared = .died w woken) :
      Step r S (.work d.session t (.heard d.move word))
        { S with pool := S.pool.withJob t .dropped w, flying := S.flying.erase t }
  | yield {t n : Nat} {w : Work} {result : Except PoolError Yield} (ht : S.HasJob t (.done result))
      (hn : S.works[t]? = some (n, w)) :
      Step r S (.work n t (.yielded result))
        { S with pool := S.pool.withJob t (.finished result) S.pool.shared }
  | world (remote : ρ) :
      Step r S .other { S with pool := { S.pool with shared := { S.pool.shared with remote := remote } } }
  | arrange (turns roused stalled : List Nat) (holder : Option Nat) (left looks : Nat) :
      Step r S .other { S with pool := { S.pool with worker := { S.pool.worker with
        turns := turns, roused := roused, stalled := stalled, holder := holder, left := left
        looks := looks } } }

/-- Steps one after the other, from a pool without sessions. -/
inductive Run (r : Remote ρ κ) (c : Catalog) (o : Options) (remote : ρ) : List (Event κ) → Scene ρ κ → Prop
  where
  | start : Run r c o remote [] (.start c o remote)
  | step {past : List (Event κ)} {e : Event κ} {S S' : Scene ρ κ} (run : Run r c o remote past S)
      (h : Step r S e S') : Run r c o remote (past ++ [e]) S'

end Scene
end SessionPool
