import SessionPool.Proofs.Farewell
import SessionPool.Proofs.Opening

/-! Saving: the task that prepares sessions and prints their states. It either fails and prints nothing, or
    prints one object with the sessions that it names as keys. In which order it names them and how often makes
    no difference, and no session is told to load twice: a session that is named again was prepared before, and
    a failure of one of them is a failure of the task, whichever comes first. -/

namespace SessionPool.CommandLine
variable {ρ κ α β : Type}

namespace Desk

/-- What comes of a step of a task, and the desk then. -/
def does (d : Desk ρ κ) (step : Step ρ κ α) : Except Failure α × Desk ρ κ := step.run.run d

/-- What a task prepares sessions with: the value in a file, if one is named. -/
def opening (d : Desk ρ κ) (scenario : Option String) (verify : Bool) : Opening where
  state :=
    match scenario with
    | none => .ok none
    | some path => (d.does (readJson (Path.expand d.home path))).1.map some
  verify := verify

/-- What is printed of the states of sessions. -/
def sheet (t : Table Json) : String := (Json.obj t).pretty ++ "\n"

/-- What comes of a task when its caller comes to states or fails, and the desk then. -/
def handed (d : Desk ρ κ) (p : Pool ρ κ) (y : Except Failure (Table Json)) : Except Failure Unit × Desk ρ κ :=
  (y.map fun _ => (), { d with pool := p, printed := d.printed ++ y.toOption.elim "" sheet })

variable {r : Remote ρ κ} {d d' : Desk ρ κ} {p : Pool ρ κ} {step : Step ρ κ α} {f : α → Step ρ κ β} {y : α}
  {c : Caller α} {failure : Failure}

theorem does_bind (h : d.does step = (.ok y, d')) : d.does (step >>= f) = d'.does (f y) := by
  rw [does] at h
  rw [does, ExceptT.run_bind, StateT.run_bind, h]
  rfl

theorem does_bind_error (h : d.does step = (.error failure, d')) : d.does (step >>= f) = (.error failure, d') := by
  rw [does] at h
  rw [does, ExceptT.run_bind, StateT.run_bind, h]
  rfl

/-- Looking at the desk changes nothing. -/
theorem does_get (d : Desk ρ κ) : d.does (get : Step ρ κ (Desk ρ κ)) = (.ok d, d) := rfl

theorem does_run (h : d.pool.run r c = (.finished y, p)) : d.does (run r c) = (.ok y, { d with pool := p }) := by
  rw [run, does_bind (does_get _), h]
  rfl

theorem does_attempt {c : Caller (Except PoolError α)} {y : Except PoolError α}
    (h : d.pool.run r c = (.finished y, p)) : d.does (attempt r c) = (y.mapError .pool, { d with pool := p }) := by
  rw [attempt, does_bind (does_run h)]
  cases y <;> rfl

/-- Reading a file has nothing to do with the pool, and leaves the desk as it is. -/
theorem does_readJson (d : Desk ρ κ) (p : Pool ρ κ) (path : String) :
    does { d with pool := p } (readJson path) = ((d.does (readJson path)).1, { d with pool := p }) := by
  rw [readJson, does_bind (does_get _), does_bind (does_get _)]
  cases d.files.readText path with
  | error e => rfl
  | ok text => cases hparse : Json.parse text <;> simp only [hparse] <;> rfl

theorem opening_pool (d : Desk ρ κ) (p : Pool ρ κ) (scenario : Option String) (verify : Bool) :
    opening { d with pool := p } scenario verify = d.opening scenario verify := by
  cases scenario with
  | none => rfl
  | some path =>
    have hread := congrArg Prod.fst (does_readJson d p (Path.expand d.home path))
    exact congrArg (fun state => (⟨Except.map some state, verify⟩ : Opening)) hread

variable {scenario : Option String} {verify : Bool} {id : String} {ids : List String}

theorem does_loadFile {path : String} {y : Except Failure Unit}
    (h : d.pool.run r ((d.opening (some path) verify).prepare id) = (.finished y, p)) :
    d.does (loadFile r id path verify) = (y, { d with pool := p }) := by
  have hread := does_readJson d d.pool (Path.expand d.home path)
  rw [loadFile, does_bind (does_get _)]
  rw [Opening.prepare, opening] at h
  cases hstate : (d.does (readJson (Path.expand d.home path))).1 with
  | error failure =>
    rw [hstate] at hread
    rw [hstate] at h
    cases h
    exact does_bind_error hread
  | ok state =>
    rw [hstate] at hread
    rw [hstate] at h
    obtain ⟨result, q, hload, hend⟩ := Pool.run_bind_finished h
    cases hend
    rw [does_bind hread]
    have hattempt := does_attempt hload
    cases result with
    | error e => exact does_bind_error hattempt
    | ok outcome =>
      rw [does_bind hattempt]
      cases outcome <;> rfl

theorem does_prepare {y : Except Failure Unit}
    (h : d.pool.run r ((d.opening scenario verify).prepare id) = (.finished y, p)) :
    d.does (prepare r scenario verify id) = (y, { d with pool := p }) := by
  cases scenario with
  | some path => exact does_loadFile h
  | none =>
    obtain ⟨made, q, henter, hend⟩ := Pool.run_bind_finished h
    cases hend
    obtain ⟨found, q, hobtain, hend⟩ := Pool.run_bind_finished henter
    have hattempt := does_attempt hobtain
    cases found with
    | error e =>
      cases hend
      exact does_bind_error hattempt
    | ok place =>
      cases hend
      exact does_bind hattempt

theorem does_prepareEach {y : Except Failure Unit} : ∀ {ids : List String} {d : Desk ρ κ},
    d.pool.run r ((d.opening scenario verify).prepareEach ids) = (.finished y, p) →
    d.does (prepareEach r scenario verify ids) = (y, { d with pool := p })
  | [], d, h => by
    cases h
    rfl
  | id :: ids, d, h => by
    obtain ⟨first, q, hfirst, hrest⟩ := Pool.run_bind_finished h
    have hprepare := does_prepare hfirst
    cases first with
    | error failure =>
      cases hrest
      exact does_bind_error hprepare
    | ok =>
      rw [← opening_pool d q] at hrest
      exact (does_bind hprepare).trans (does_prepareEach hrest)

/-- A task that saves does with the pool what its caller does, and prints the states. -/
theorem does_save {y : Except Failure (Table Json)}
    (hcatalog : ∀ y q, d.pool.run r ((d.opening scenario verify).prepareEach ids) = (.finished y, q) →
      q.catalog = d.pool.catalog)
    (h : d.pool.run r ((d.opening scenario verify).save d.pool.catalog ids) = (.finished y, p)) :
    d.does (save r ids scenario verify) = d.handed p y := by
  obtain ⟨first, q, hfirst, hrest⟩ := Pool.run_bind_finished h
  have hprepare := does_prepareEach hfirst
  cases first with
  | error failure =>
    cases hrest
    rw [save, does_bind_error hprepare]
    exact Prod.ext rfl (congrArg (fun printed => { d with pool := q, printed := printed }) (String.append_empty).symm)
  | ok =>
    obtain ⟨saved, q', hsave, hend⟩ := Pool.run_bind_finished hrest
    cases hend
    rw [← hcatalog _ q hfirst] at hsave
    rw [save, does_bind hprepare, does_bind (does_get _), does_bind (does_run (d := { d with pool := q }) hsave)]
    exact Prod.ext rfl (congrArg (fun printed => { d with pool := q', printed := printed }) String.append_assoc)

theorem opening_ne_never (d : Desk ρ κ) (scenario : Option String) (verify : Bool) :
    (d.opening scenario verify).state ≠ .error .never := by
  cases scenario with
  | none => nofun
  | some path =>
    intro h
    replace h : ((d.does (readJson (Path.expand d.home path))).1.map some) = .error .never := h
    rw [readJson, does_bind (does_get _)] at h
    cases hread : d.files.readText (Path.expand d.home path) with
    | error e =>
      rw [hread] at h
      cases h
    | ok text =>
      cases hparse : Json.parse text <;> simp only [hread, hparse] at h <;> cases h

/-- Sessions are saved whatever the order in which they are named, and however often. -/
structure Gathers (r : Remote ρ κ) (d : Desk ρ κ) (scenario : Option String) (verify : Bool) : Prop where
  /-- The task asks of the pool what its caller asks. -/
  asks : ∀ ids, ∃ y p,
    d.pool.run r ((d.opening scenario verify).save d.pool.catalog ids) = (.finished y, p) ∧
    d.does (save r ids scenario verify) = d.handed p y
  /-- It fails and prints nothing, or prints one object, with the sessions as keys. -/
  prints : ∀ ids, (∃ failure d', failure ≠ .never ∧
      d.does (save r ids scenario verify) = (.error failure, d') ∧ d'.printed = d.printed) ∨
    ∃ t d', d.does (save r ids scenario verify) = (.ok (), d') ∧ d'.printed = d.printed ++ sheet t ∧
      Table.Sorted t ∧ ∀ id, id ∈ Table.keys t ↔ id ∈ ids
  /-- Lists of the same sessions come to the same. -/
  alike : ∀ ids ids', (∀ id, id ∈ ids ↔ id ∈ ids') →
    ((d.does (save r ids scenario verify)).1 = .ok () ↔ (d.does (save r ids' scenario verify)).1 = .ok ()) ∧
    (d.does (save r ids scenario verify)).2.printed = (d.does (save r ids' scenario verify)).2.printed
  /-- No session is told to load twice. -/
  once : ∀ ids id, loads id (d.pool.heard r ((d.opening scenario verify).save d.pool.catalog ids)) ≤ 1

/-- The task comes to what its caller comes to. -/
theorem does_saved {x : ρ} {y : Except Failure (Table Json)} (hr : r.Independent) (hp : d.pool.Made r)
    (h : Opening.Saved r x (d.opening scenario verify) d.pool ids y p) :
    d.does (save r ids scenario verify) = d.handed p y :=
  does_save (fun _ _ hrun => (Opening.underway_made hp x _).catalog_of_run hr hrun) h.run

end Desk

end SessionPool.CommandLine

namespace SessionPool
open CommandLine
variable {ρ κ : Type}

/-- On independent servers a new pool saves sessions whatever the order in which they are named. -/
theorem Remote.Independent.gathers {r : Remote ρ κ} {d : CommandLine.Desk ρ κ} (hr : r.Independent)
    (hp : d.pool.Made r) (scenario : Option String) (verify : Bool) : d.Gathers r scenario verify := by
  have hsaved := Opening.saved_made hr hp d.pool.shared.remote (d.opening scenario verify)
  exact {
    asks := fun ids => by
      obtain ⟨y, p, h⟩ := hsaved ids
      exact ⟨y, p, h.run, Desk.does_saved hr hp h⟩
    prints := fun ids => by
      obtain ⟨y, p, h⟩ := hsaved ids
      rw [Desk.does_saved hr hp h]
      cases y with
      | error failure =>
        obtain ⟨id, -, hfate⟩ := h.failed failure rfl
        refine .inl ⟨failure, _, ?_, rfl, String.append_empty⟩
        rintro rfl
        exact Opening.fate_ne_never hr.prompt (Desk.opening_ne_never d scenario verify) hfate
      | ok t => exact .inr ⟨t, _, rfl, rfl, h.sorted t rfl, h.keys t rfl⟩
    alike := fun ids ids' hids => by
      obtain ⟨y, p, h⟩ := hsaved ids
      obtain ⟨y', p', h'⟩ := hsaved ids'
      have hsame := h.alike h' hids
      rw [Desk.does_saved hr hp h, Desk.does_saved hr hp h', Desk.handed, Desk.handed, hsame]
      refine ⟨?_, rfl⟩
      cases y with
      | ok t =>
        cases y' with
        | ok t' => exact iff_of_true rfl rfl
        | error failure' => cases hsame
      | error failure =>
        cases y' with
        | ok t' => cases hsame
        | error failure' => exact iff_of_false nofun nofun
    once := fun ids => by
      obtain ⟨y, p, h⟩ := hsaved ids
      exact h.once }

/-- A parlour, with a state in a file. -/
def casino : CommandLine.Desk Nat Nat where
  pool := parlour
  home := none
  files := [("hand.json", .file "true".toUTF8)]

theorem gathers_casino : casino.Gathers tally (some "hand.json") false ∧
    (casino.does (Desk.save tally ["game-b", "game-a", "game-b"] (some "hand.json") false)).2.printed =
      "\x7b\n  \"game-a\": \"again\",\n  \"game-b\": \"again\"\n\x7d\n" ∧
    loads "game-b" (casino.pool.heard tally ((casino.opening (some "hand.json") false).save casino.pool.catalog
      ["game-b", "game-a", "game-b"])) = 1 ∧
    casino.Gathers tally (some "hand.json") true ∧
    (casino.does (Desk.save tally ["game-a", "game-b"] (some "hand.json") true)).2.printed = "" := by
  refine ⟨Remote.Independent.gathers tally_independent (.ofCatalog ..) _ _, ?_, ?_,
    Remote.Independent.gathers tally_independent (.ofCatalog ..) _ _, ?_⟩ <;> decide +kernel

end SessionPool
