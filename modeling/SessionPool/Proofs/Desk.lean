import SessionPool.Proofs.Dealings
import SessionPool.Proofs.Isolation

/-! The desk: a pool that is told what to do, one instruction after the other, with the files that it
    writes. Every instruction comes to deals and leaves the pool quiet, so whatever deals keep is kept over
    any run of instructions. -/

namespace SessionPool
variable {ρ κ : Type}

/-- What a pool is told to do. -/
inductive Instruction where
  | order (o : Order)
  | mark (session : String)
  | chat (session user assistant : String)
  | dump (path : Option String)

/-- What comes of an instruction. -/
inductive Upshot where
  | noted
  | gave (x : Response)
  | dumped (lines : Except PoolError Nat)
  /-- The caller does not return. -/
  | stuck

/-- A pool and the files. -/
structure Desk (ρ κ : Type) where
  pool : Pool ρ κ
  files : FileTree := []

/-- A load that reaches a session, unless its group is not in the catalog. -/
structure Loading where
  session : String
  state : Json
  extra : Fields
  check : Bool

namespace Instruction

/-- Whether an instruction shuts the pool down. -/
def isShutdown : Instruction → Bool
  | order (.shutdown _) => true
  | _ => false

/-- Whether an instruction closes all sessions. -/
def sweeps : Instruction → Bool
  | order .closeAll => true
  | order (.shutdown _) => true
  | _ => false

/-- The load that an instruction is. An invocation without well-formed arguments loads nothing. -/
def load? : Instruction → Option Loading
  | order (.load session state extra check) => some ⟨session, state, extra, check⟩
  | order (.invoke session name args) =>
    match args.fields with
    | .error _ => none
    | .ok fields =>
      if isLoad (operationName name) then
        some ⟨session, (Arguments.splitScenario fields).1, (Arguments.splitScenario fields).2, false⟩
      else none
  | _ => none

/-- What a load is told to have come to. -/
def report : Instruction → Except PoolError LoadOutcome → Upshot
  | order (.load _ _ _ _), y => .gave (.outcome y)
  | _, y => .gave (.result (y.map Normalized.ofOutcome))

/-- The operation that an instruction calls on a live session, with its arguments, if it does and if that
    is no load. -/
def call? (id : String) : Instruction → Option (String × Fields)
  | order (.invoke session name args) =>
    match args.fields with
    | .error _ => none
    | .ok fields => if session = id ∧ isLoad (operationName name) = false then
        some (operationName name, fields) else none
  | order .saveAll => some (saveScenario, [])
  | _ => none

end Instruction

namespace Desk

/-- Does what it is told. -/
def obey (r : Remote ρ κ) (d : Desk ρ κ) : Instruction → Upshot × Desk ρ κ
  | .order o =>
    match d.pool.run r (o.program d.pool.catalog) with
    | (.finished x, p) => (.gave x, { d with pool := p })
    | (_, p) => (.stuck, { d with pool := p })
  | .mark session => (.noted, { d with pool := d.pool.markReady session })
  | .chat session user assistant => (.noted, { d with pool := d.pool.chat session user assistant })
  | .dump path =>
    (.dumped (d.pool.dump d.files path).1, { d with files := (d.pool.dump d.files path).2 })

/-- What is heard from the servers meanwhile. -/
def heard (r : Remote ρ κ) (d : Desk ρ κ) : Instruction → List (Heard κ)
  | .order o => d.pool.heard r (o.program d.pool.catalog)
  | _ => []

/-- The desk after instructions. -/
def after (r : Remote ρ κ) (d : Desk ρ κ) (run : List Instruction) : Desk ρ κ :=
  run.foldl (fun d i => (d.obey r i).2) d

end Desk

/-- What comes of an instruction on a quiet pool. -/
inductive Instruction.Makes (r : Remote ρ κ) (f : Front ρ κ) :
    Instruction → Upshot → List (Deal κ) → Front ρ κ → Prop
  | ordered {o : Order} {x : Response} {ds : List (Deal κ)} {f' : Front ρ κ} (makes : o.Makes r f x ds f') :
      Makes r f (.order o) (.gave x) ds f'
  | marked {id : String} {n : Nat} {f' : Front ρ κ} (hn : Table.get? id f.registry = some n) :
      Makes r f (.mark id) .noted [.marked id n] f'
  | unmarked {id : String} {f' : Front ρ κ} (hn : Table.get? id f.registry = none) :
      Makes r f (.mark id) .noted [] f'
  | chatted {session user assistant : String} {f' : Front ρ κ} :
      Makes r f (.chat session user assistant) .noted [.chatted session user assistant] f'
  | dumped {path : Option String} {lines : Except PoolError Nat} {f' : Front ρ κ} :
      Makes r f (.dump path) (.dumped lines) [] f'

namespace Instruction

/-- The deals that an instruction may come to. -/
inductive Permits (f : Front ρ κ) (i : Instruction) : Deal κ → Prop
  | obtained {id : String} {n : Nat} : Permits f i (.obtained id n)
  | marked {id : String} {n : Nat} (hi : i = .mark id) (hn : Table.get? id f.registry = some n) :
      Permits f i (.marked id n)
  | stateless {id : String} {n : Nat} (hi : (i.call? id).isSome = true)
      (hstateless : f.catalog.isStateless (SessionKey.parse id).group = true) : Permits f i (.marked id n)
  | loaded {l : Loading} {n : Nat} {result : Option (Except PoolError Yield)} {heard : List (Heard κ)}
      (hi : i.load? = some l) (hstate : isEmptyScenario l.state = false) :
      Permits f i (.worked ⟨n, .load l.state l.extra l.check, result, heard⟩)
  | called {id operation : String} {args : Fields} {n : Nat} {result : Option (Except PoolError Yield)}
      {heard : List (Heard κ)} (hi : i.call? id = some (operation, args)) :
      Permits f i (.worked ⟨n, .call operation args, result, heard⟩)
  | removed {id : String} (hi : i = .order (.close id)) : Permits f i (.removed id)
  | released {id : String} {n : Nat} {result : Option (Except PoolError Yield)} {heard : List (Heard κ)}
      (hi : i = .order (.close id)) (hn : Table.get? id f.registry = some n) :
      Permits f i (.worked ⟨n, .release, result, heard⟩)
  | chatted {session user assistant : String} (hi : i = .chat session user assistant) :
      Permits f i (.chatted session user assistant)
  | swept {n : Nat} {result : Option (Except PoolError Yield)} {heard : List (Heard κ)}
      (hi : i.sweeps = true) : Permits f i (.worked ⟨n, .release, result, heard⟩)
  | drained (hi : i.sweeps = true) : Permits f i .drained
  | cleared (hi : i.sweeps = true) : Permits f i .cleared
  | stopped (hi : i.isShutdown = true) : Permits f i .stopped

variable {r : Remote ρ κ} {f f' : Front ρ κ} {i : Instruction} {id operation : String} {args : Fields}
  {d : Deal κ} {ds : List (Deal κ)}

theorem permits_loads {l : Loading} {y : Except PoolError LoadOutcome} (hi : i.load? = some l)
    (h : Loads f l.session l.state l.extra l.check y ds) (hd : d ∈ ds) : i.Permits f d := by
  cases h with
  | unknown => cases hd
  | already | empty =>
    cases List.mem_singleton.1 hd
    exact .obtained
  | sent hready hstate hsent =>
    rcases List.mem_cons.1 hd with rfl | hd
    · exact .obtained
    · obtain ⟨result, heard, rfl⟩ := hsent.mem hd
      exact .loaded hi hstate

theorem permits_calls {g : Front ρ κ} {y : Except PoolError Normalized} (hg : g.catalog = f.catalog)
    (hi : i.call? id = some (operation, args)) (h : Calls g id operation args y ds) (hd : d ∈ ds) :
    i.Permits f d := by
  rcases h.mem hd with ⟨n, rfl⟩ | ⟨n, rfl, hstateless⟩ | ⟨n, result, heard, rfl⟩
  · exact .obtained
  · exact .stateless (by rw [hi]; rfl) (hg ▸ hstateless)
  · exact .called hi

theorem permits_saves {ids : List String} {t : Table Json} (h : Saves r f ids t ds f') (hd : d ∈ ds) :
    Permits f (.order .saveAll) d := by
  obtain ⟨id, -, g, hg, y, ds', hcalls, hd⟩ := h.mem hd
  exact permits_calls hg rfl hcalls hd

theorem permits_sweeps (hi : i.sweeps = true) (h : Sweeps ds) (hd : d ∈ ds) : i.Permits f d := by
  obtain ⟨hreleases⟩ := h
  rcases List.mem_append.1 hd with hd | hd
  · rcases List.mem_cons.1 hd with rfl | hd
    · exact .drained hi
    · obtain ⟨⟨place, work, result, heard⟩, hmem, rfl⟩ := List.mem_map.1 hd
      cases hreleases _ hmem
      exact .swept hi
  · cases List.mem_singleton.1 hd
    exact .cleared hi

/-- An instruction comes to no other deals than it may. -/
theorem Makes.permits {x : Upshot} (h : i.Makes r f x ds f') (hd : d ∈ ds) : i.Permits f d := by
  cases h with
  | marked hn =>
    cases List.mem_singleton.1 hd
    exact .marked rfl hn
  | unmarked | dumped => cases hd
  | chatted =>
    cases List.mem_singleton.1 hd
    exact .chatted rfl
  | ordered hmakes =>
    cases hmakes with
    | unknown => cases hd
    | obtained =>
      cases List.mem_singleton.1 hd
      exact .obtained
    | invoked hinvokes =>
      cases hinvokes with
      | malformed => cases hd
      | loads hargs hload hloads =>
        refine permits_loads (l := ⟨_, _, _, _⟩) ?_ hloads hd
        simp only [load?, hargs, hload, if_true]
      | calls hargs hload hcalls =>
        refine permits_calls rfl ?_ hcalls hd
        simp only [call?, hargs, hload, and_self, if_true]
    | loaded hloads => exact permits_loads (l := ⟨_, _, _, _⟩) rfl hloads hd
    | absent hn =>
      cases List.mem_singleton.1 hd
      exact .removed rfl
    | closed hn hsent =>
      rcases List.mem_cons.1 hd with rfl | hd
      · exact .removed rfl
      · obtain ⟨result, heard, rfl⟩ := hsent.mem hd
        exact .released rfl hn
    | swept hsweeps => exact permits_sweeps rfl hsweeps hd
    | ended hsweeps =>
      rcases List.mem_append.1 hd with hd | hd
      · exact permits_sweeps rfl hsweeps hd
      · cases List.mem_singleton.1 hd
        exact .stopped rfl
    | saved hsaves => exact permits_saves hsaves hd

/-- A load is told to have come to what it comes to. -/
theorem Makes.loads {l : Loading} {x : Upshot} (h : i.Makes r f x ds f') (hi : i.load? = some l) :
    ∃ y, x = i.report y ∧ Loads f l.session l.state l.extra l.check y ds := by
  cases h with
  | ordered hmakes =>
    cases hmakes with
    | loaded hloads =>
      cases hi
      exact ⟨_, rfl, hloads⟩
    | invoked hinvokes =>
      cases hinvokes with
      | malformed hargs =>
        simp only [load?, hargs] at hi
        cases hi
      | loads hargs hload hloads =>
        simp only [load?, hargs, hload, if_true] at hi
        cases hi
        exact ⟨_, rfl, hloads⟩
      | calls hargs hload hcalls =>
        simp only [load?, hargs, hload, Bool.false_eq_true, if_false] at hi
        cases hi
    | _ => cases hi
  | _ => cases hi

/-- An operation that is called on a session comes to a call. -/
theorem Makes.calls {x : Upshot} (h : i.Makes r f x ds f') (hi : i.call? id = some (operation, args))
    (hone : i ≠ .order .saveAll) : ∃ y, x = .gave (.result y) ∧ Calls f id operation args y ds := by
  cases h with
  | ordered hmakes =>
    cases hmakes with
    | @invoked session name _ y _ _ hinvokes =>
      cases hinvokes with
      | malformed hargs =>
        simp only [call?, hargs] at hi
        cases hi
      | loads hargs hload hloads => simp [call?, hargs, hload] at hi
      | calls hargs hload hcalls =>
        simp only [call?, hargs, hload, and_true] at hi
        split at hi
        · rename_i heq
          subst heq
          cases hi
          exact ⟨y, rfl, hcalls⟩
        · cases hi
    | saved => exact absurd rfl hone
    | _ => cases hi
  | _ => cases hi

theorem call_of_sweeps (id : String) (hi : i.sweeps = true) : i.call? id = none := by
  cases i with
  | order o => cases o <;> first | rfl | cases hi
  | _ => cases hi

/-- What calls an operation takes no session out of the registry. -/
theorem Makes.keeps_call {x : Upshot} (h : i.Makes r f x ds f') (hi : (i.call? id).isSome = true) (j : String) :
    ∀ d ∈ ds, d.removes j = false := by
  intro d hd
  cases h.permits hd with
  | removed hclose =>
    subst hclose
    cases hi
  | drained hsweeps =>
    rw [call_of_sweeps id hsweeps] at hi
    cases hi
  | _ => rfl

end Instruction

namespace Desk

/-- An instruction is obeyed by deals. -/
structure Obeys (r : Remote ρ κ) (d : Desk ρ κ) (i : Instruction) (x : Upshot) (ds : List (Deal κ))
    (d' : Desk ρ κ) : Prop where
  obey : d.obey r i = (x, d')
  heard : d.heard r i = ds.flatMap Deal.heard
  deals : Front.Deals r d.pool.front ds d'.pool.front
  makes : i.Makes r d.pool.front x ds d'.pool.front
  quiet : d'.pool.Quiet

variable {r : Remote ρ κ} {d : Desk ρ κ}

theorem obeys (hr : r.Prompt) (h : d.pool.Quiet) (i : Instruction) : ∃ x ds d', Obeys r d i x ds d' := by
  cases i with
  | order o =>
    obtain ⟨y, ds, p', hruns, hquiet, hmakes⟩ := h.runs_order hr o
    refine ⟨.gave y, ds, { d with pool := p' }, ?_, hruns.heard, hruns.deals, .ordered hmakes, hquiet⟩
    simp only [Desk.obey, hruns.run]
  | mark id =>
    cases hn : Table.get? id d.pool.registry with
    | none =>
      have hpool : d.pool.markReady id = d.pool := by
        rw [Pool.markReady, hn]
      refine ⟨_, [], _, rfl, rfl, ?_, .unmarked hn, ?_⟩
      · rw [hpool]
        exact .none
      · rw [hpool]
        exact h
    | some n =>
      obtain ⟨hruns, hquiet, -⟩ := h.runs_mark r hn
      exact ⟨_, _, _, rfl, rfl, hruns.deals, .marked hn, hquiet⟩
  | chat session user assistant =>
    have hdoes : Front.Does r d.pool.front (.chatted session user assistant) _ := .chatted
    exact ⟨_, _, _, rfl, rfl, .one hdoes, .chatted, h.of_worker rfl (hdoes.tidy h.tidy)⟩
  | dump path => exact ⟨_, _, _, rfl, rfl, .none, .dumped, h⟩

/-- Whoever tells a desk to do something gets an answer. -/
theorem returns (hr : r.Prompt) (h : d.pool.Quiet) (i : Instruction) : (d.obey r i).1 ≠ .stuck := by
  obtain ⟨x, ds, d', hobeys⟩ := obeys hr h i
  rw [hobeys.obey]
  cases hobeys.makes <;> nofun

theorem obey_quiet (hr : r.Prompt) (h : d.pool.Quiet) (i : Instruction) : (d.obey r i).2.pool.Quiet := by
  obtain ⟨x, ds, d', hobeys⟩ := obeys hr h i
  rw [hobeys.obey]
  exact hobeys.quiet

theorem after_append (d : Desk ρ κ) (run later : List Instruction) :
    d.after r (run ++ later) = (d.after r run).after r later := List.foldl_append ..

theorem after_quiet (hr : r.Prompt) (run : List Instruction) :
    ∀ {d : Desk ρ κ}, d.pool.Quiet → (d.after r run).pool.Quiet := by
  induction run with
  | nil => exact fun h => h
  | cons i run ih =>
    intro d h
    exact ih (obey_quiet hr h i)

/-- What is kept by each instruction of a kind is kept by a run of them. -/
theorem after_keeps (hr : r.Prompt) {P : Desk ρ κ → Prop} {K : Instruction → Prop}
    (hkeep : ∀ {d i x ds d'}, d.pool.Quiet → K i → Obeys r d i x ds d' → P d → P d')
    (run : List Instruction) (hrun : ∀ i ∈ run, K i) :
    ∀ {d : Desk ρ κ}, d.pool.Quiet → P d → P (d.after r run) := by
  induction run with
  | nil => exact fun _ hP => hP
  | cons i run ih =>
    intro d h hP
    obtain ⟨x, ds, d', hobeys⟩ := obeys hr h i
    rw [after, List.foldl_cons, hobeys.obey]
    exact ih (fun j hj => hrun j (List.mem_cons_of_mem _ hj)) hobeys.quiet
      (hkeep h (hrun i List.mem_cons_self) hobeys hP)

end Desk

namespace Pool
variable {r : Remote ρ κ} {p : Pool ρ κ}

theorem Made.fresh (h : p.Made r) :
    p.worker.joined = false ∧ p.shared.log = [] ∧ p.shared.sessions = [] := by
  obtain ⟨c, o, remote, worker, rfl, rfl | rfl⟩ := h.blank <;> exact ⟨rfl, rfl, rfl⟩

/-- A pool is quiet when it is made. -/
theorem Made.quiet (h : p.Made r) : p.Quiet := by
  obtain ⟨hrest, hregistry⟩ := h.rest
  refine ⟨.inr ⟨hrest.resting, h.fresh.1⟩, hrest.settled, hrest.free, hrest.sorted, fun id n hn => ?_⟩
  rw [front, hregistry] at hn
  cases hn

end Pool
end SessionPool
