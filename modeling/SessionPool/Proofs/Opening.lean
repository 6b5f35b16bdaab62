import SessionPool.CommandLine.Run
import SessionPool.Proofs.Isolation
import SessionPool.Proofs.Loading

/-! Openings: sessions are prepared for a task, one after the other, each with the same state or with none. A
    session that was prepared needs nothing more, so it might as well be named once as often, and as each is
    prepared by itself, in any order. What becomes of one, its fate, is known before anything is prepared. -/

namespace SessionPool
variable {ρ κ : Type}

/-- A visit whose result is put in another form. -/
def Visit.map {α β : Type} (f : α → β) (visit : Visit κ α) : Visit κ β := fun v => (f (visit v).1, (visit v).2)

/-- A session is found or made, and stays as it is. -/
def Visit.enter (c : Catalog) (id : String) : Visit κ (Except PoolError Unit) := entered c id fun s => (.ok (), s)

namespace Caller
variable {r : Remote ρ κ} {c : Catalog} {id : String}

theorem Visits.map {α β : Type} {caller : Caller α} {visit : Visit κ α} (h : caller.Visits r c id visit)
    (f : α → β) : Visits r c id (caller >>= fun y => pure (f y)) (visit.map f) := by
  intro p hp hc
  obtain ⟨p', hrun, hserves⟩ := h p hp hc
  exact ⟨p', Pool.run_bind hrun, hserves⟩

/-- Makes a session if there is none. -/
def enter (session : String) : Caller (Except PoolError Unit) := do
  match ← act (.obtain session) with
  | .error e => pure (.error e)
  | .ok _ => pure (.ok ())

theorem enter_visits : Visits r c id (enter id) (Visit.enter c id) := by
  refine visits_obtain (fun _ => rfl) fun p n s h hc hn hs => ?_
  have hlive : p.session? id = some s := by rw [Pool.session?, hn, Option.bind_some, hs]
  exact ⟨p, rfl, hlive ▸ h.serves id⟩

end Caller

namespace CommandLine

/-! ### Preparing -/

/-- What comes of a load to a task: a mismatch is a failure too. -/
def applied (session : String) : Except PoolError LoadOutcome → Except Failure Unit
  | .error e => .error (.pool e)
  | .ok (.mismatch expected saved) => .error (.text (session ++ ": " ++ (LoadOutcome.mismatch expected saved).text))
  | .ok _ => .ok ()

/-- What sessions are prepared with: a state, if one is given, unless it cannot be read. -/
structure Opening where
  state : Except Failure (Option Json)
  verify : Bool

namespace Opening

/-- Makes a session, with the state loaded if one is given. -/
def prepare (o : Opening) (session : String) : Caller (Except Failure Unit) :=
  match o.state with
  | .error f => pure (.error f)
  | .ok none => do return (← Caller.enter session).mapError .pool
  | .ok (some state) => do return applied session (← Caller.load session state o.verify)

/-- Prepares sessions one after the other, up to the first that fails. -/
def prepareEach (o : Opening) : List String → Caller (Except Failure Unit)
  | [] => pure (.ok ())
  | session :: rest => do
    match ← o.prepare session with
    | .error f => pure (.error f)
    | .ok () => prepareEach o rest

/-- Prepares sessions and asks for their states then. -/
def save (o : Opening) (c : Catalog) (sessions : List String) : Caller (Except Failure (Table Json)) := do
  match ← o.prepareEach sessions with
  | .error f => pure (.error f)
  | .ok () => do return .ok (← Caller.saveAll c)

/-- What preparing does with one session. -/
def visit (r : Remote ρ κ) (x : ρ) (c : Catalog) (o : Opening) (id : String) : Visit κ (Except Failure Unit) :=
  match o.state with
  | .error f => fun v => (.error f, v)
  | .ok none => (Visit.enter c id).map (Except.mapError .pool)
  | .ok (some state) => (Visit.loadWith r x c id state [] o.verify).map (applied id)

/-- What becomes of a session that is prepared: whether it fails, and the session then. -/
def fate (r : Remote ρ κ) (x : ρ) (c : Catalog) (o : Opening) (id : String) :
    Except Failure Unit × Option (Session κ) :=
  o.visit r x c id none

/-- A session needs no preparing any more. -/
def Spares (o : Opening) (s : Session κ) : Prop :=
  match o.state with
  | .error _ => False
  | .ok none => True
  | .ok (some state) => s.ready = true ∨ isEmptyScenario state = true

variable {r : Remote ρ κ} {x : ρ} {c : Catalog} {o : Opening} {id : String} {p : Pool ρ κ} {s : Session κ}
  {ids : List String}

theorem prepare_visits (hr : r.Independent) (x : ρ) (c : Catalog) (o : Opening) (id : String) :
    (o.prepare id).Visits r c id (o.visit r x c id) := by
  rw [prepare, visit]
  split
  · exact fun p h _ => ⟨p, rfl, h.serves id⟩
  · exact Caller.enter_visits.map _
  · exact (Caller.loadWith_visits hr x _ [] o.verify).map _

/-- Preparing leaves a session as it is that needs no preparing. -/
theorem visit_spared (h : o.Spares s) : o.visit r x c id (some s) = (.ok (), some s) := by
  obtain ⟨f | state?, verify⟩ := o
  · exact h.elim
  cases state? with
  | none => rfl
  | some state =>
    simp only [visit, Visit.map, Visit.loadWith, Visit.entered, Catalog.enter]
    split
    · rfl
    · rename_i hready
      rw [if_pos (h.resolve_left hready)]
      rfl

/-- A session that is prepared is there and needs no preparing any more, unless that fails. -/
theorem fate_cases (hr : r.Prompt) (x : ρ) (c : Catalog) (o : Opening) (id : String) :
    (∃ s, o.fate r x c id = (.ok (), some s) ∧ o.Spares s) ∨
      ∃ f, (o.fate r x c id).1 = .error f ∧ (f = .never → o.state = .error .never) := by
  obtain ⟨f | state?, verify⟩ := o
  · exact .inr ⟨f, rfl, congrArg Except.error⟩
  cases state? with
  | none =>
    have hfate : fate r x c ⟨.ok none, verify⟩ id = Visit.map (Except.mapError .pool) (Visit.enter c id) none := rfl
    rw [hfate, Visit.map]
    cases hmade : (Visit.enter (κ := κ) c id none).1 with
    | error e => exact .inr ⟨_, rfl, nofun⟩
    | ok =>
      obtain ⟨s, -, -, hleaves⟩ := Visit.of_entered hmade
      exact .inl ⟨s, Prod.ext rfl hleaves, trivial⟩
  | some state =>
    have hfate : fate r x c ⟨.ok (some state), verify⟩ id =
      Visit.map (applied id) (Visit.loadWith r x c id state [] verify) none := rfl
    rw [hfate, Visit.map]
    cases hloaded : (Visit.loadWith r x c id state [] verify none).1 with
    | error e => exact .inr ⟨_, rfl, nofun⟩
    | ok outcome =>
      have hsettles := fun hmatch => Visit.loadWith_settles hr hloaded hmatch
      cases outcome with
      | mismatch expected saved => exact .inr ⟨_, rfl, nofun⟩
      | loaded _ _ | alreadyInitialized | emptyScenario =>
        obtain ⟨s, hleaves, hspared⟩ := hsettles nofun
        exact .inl ⟨s, Prod.ext rfl hleaves, hspared⟩

theorem fate_spared (hr : r.Prompt) (h : (o.fate r x c id).1 = .ok ()) :
    ∃ s, o.fate r x c id = (.ok (), some s) ∧ o.Spares s := by
  rcases fate_cases hr x c o id with hspared | ⟨f, hfails, -⟩
  · exact hspared
  · cases h.symm.trans hfails

/-- Preparing always comes to something. -/
theorem fate_ne_never (hr : r.Prompt) (ho : o.state ≠ .error .never) : (o.fate r x c id).1 ≠ .error .never := by
  intro h
  rcases fate_cases hr x c o id with ⟨s, hfate, -⟩ | ⟨f, hfails, hnever⟩
  · cases (congrArg Prod.fst hfate).symm.trans h
  · cases hfails.symm.trans h
    exact ho (hnever rfl)

/-- What preparing a session comes to in a pool between two commands: it loads once at most, and not if the
    session needs no preparing. -/
theorem runs_prepare (hr : r.Prompt) (h : p.Orderly) (o : Opening) (id : String) : ∃ y p',
    p.run r (o.prepare id) = (.finished y, p') ∧ p'.Orderly ∧ LoadsOnce id (p.heard r (o.prepare id)) ∧
      ∀ s, p.session? id = some s → o.Spares s → p.heard r (o.prepare id) = [] := by
  suffices hruns : ∃ y ds p', p.Runs r (o.prepare id) y ds p' ∧ p'.Quiet ∧ LoadsOnce id (ds.flatMap Deal.heard) ∧
      ∀ s, p.session? id = some s → o.Spares s → ds.flatMap Deal.heard = [] by
    obtain ⟨y, ds, p', hruns, hquiet, honce, hsilent⟩ := hruns
    rw [← hruns.heard] at honce hsilent
    exact ⟨y, p', hruns.run, ⟨hquiet, hruns.deals.isOpen h.quiet.tidy h.isOpen⟩, honce, hsilent⟩
  obtain ⟨f | state?, verify⟩ := o
  · exact ⟨_, [], p, .done r p _, h.quiet, .nil id, fun _ _ _ => rfl⟩
  cases state? with
  | none =>
    rcases h.quiet.runs_obtain r id with ⟨-, -, hruns⟩ | ⟨n, p', hruns, hquiet, -⟩
    · have henter : p.Runs r (Caller.enter id) _ [] p := hruns.pure rfl
      exact ⟨_, _, p, henter.pure rfl, h.quiet, .nil id, fun _ _ _ => rfl⟩
    · have henter : p.Runs r (Caller.enter id) _ [.obtained id n] p' := hruns.pure rfl
      exact ⟨_, _, p', henter.pure rfl, hquiet, .nil id, fun _ _ _ => rfl⟩
  | some state =>
    obtain ⟨y, ds, p', hruns, hquiet, hloads⟩ := h.quiet.runs_loadWith hr id state [] verify
    refine ⟨_, ds, p', hruns.pure rfl, hquiet, hloads.loads_once hruns.deals h.quiet.tidy, fun s hs hspared => ?_⟩
    obtain ⟨n, hn, hat⟩ := Option.bind_eq_some_iff.1 hs
    refine hloads.silent hruns.deals hn (hspared.imp (fun hready => ?_) fun hempty => hempty)
    exact (congrArg (fun s? => (s?.map Session.ready).getD false) hat).trans hready

/-- A pool in which some sessions were prepared, and no others are live. -/
structure Underway (r : Remote ρ κ) (x : ρ) (o : Opening) (p : Pool ρ κ) : Prop where
  rest : p.Rest
  orderly : p.Orderly
  fated : ∀ id s, p.session? id = some s → o.fate r x p.catalog id = (.ok (), some s) ∧ o.Spares s

/-- Prepared once or often, a session comes to its fate. -/
theorem Underway.visit_eq (h : Underway r x o p) (id : String) :
    o.visit r x p.catalog id (p.session? id) = o.fate r x p.catalog id := by
  cases hlive : p.session? id with
  | none => rfl
  | some s =>
    obtain ⟨hfate, hspared⟩ := h.fated id s hlive
    rw [visit_spared hspared, hfate]

/-- What comes of preparing one session. -/
structure Prepares (r : Remote ρ κ) (x : ρ) (o : Opening) (p : Pool ρ κ) (id : String) (p' : Pool ρ κ) : Prop where
  run : p.run r (o.prepare id) = (.finished (o.fate r x p.catalog id).1, p')
  catalog : p'.catalog = p.catalog
  done : (o.fate r x p.catalog id).1 = .ok () → Underway r x o p' ∧
    ∀ j, (p'.session? j).isSome ↔ j = id ∨ (p.session? j).isSome
  once : LoadsOnce id (p.heard r (o.prepare id))
  spared : ∀ j, (p.session? j).isSome → loads j (p.heard r (o.prepare id)) = 0

theorem Underway.prepare (hr : r.Independent) (h : Underway r x o p) (id : String) :
    ∃ p', Prepares r x o p id p' := by
  obtain ⟨p', hrun, hserves⟩ := prepare_visits hr x p.catalog o id p h.rest rfl
  obtain ⟨y, p₁, hrun', horderly, honce, hsilent⟩ := runs_prepare hr.prompt h.orderly o id
  rw [h.visit_eq] at hrun hserves
  cases hrun.symm.trans hrun'
  refine ⟨p', hrun, hserves.catalog, fun hok => ?_, honce, fun j hlive => ?_⟩
  · obtain ⟨s, hfate, hspared⟩ := fate_spared hr.prompt hok
    have hhere : p'.session? id = some s := by rw [hserves.here, hfate]
    refine ⟨⟨hserves.rest, horderly, fun j s' hs' => ?_⟩, fun j => ?_⟩
    · rw [hserves.catalog]
      by_cases hj : j = id
      · subst hj
        cases hhere.symm.trans hs'
        exact ⟨hfate, hspared⟩
      · exact h.fated j s' ((hserves.others j hj).symm.trans hs')
    · by_cases hj : j = id
      · simp [hj, hhere]
      · simp [hj, hserves.others j hj]
  · by_cases hj : j = id
    · subst hj
      obtain ⟨s, hs⟩ := Option.isSome_iff_exists.1 hlive
      rw [hsilent s hs (h.fated j s hs).2]
      rfl
    · exact honce.2 j hj

/-- What comes of preparing sessions one after the other. -/
structure Prepared (r : Remote ρ κ) (x : ρ) (o : Opening) (p : Pool ρ κ) (ids : List String)
    (y : Except Failure Unit) (p' : Pool ρ κ) : Prop where
  run : p.run r (o.prepareEach ids) = (.finished y, p')
  catalog : p'.catalog = p.catalog
  /-- It fails as one of them does. -/
  failed : ∀ f, y = .error f → ∃ id ∈ ids, (o.fate r x p.catalog id).1 = .error f
  /-- Otherwise none of them does, and they are live. -/
  done : y = .ok () → Underway r x o p' ∧ (∀ id ∈ ids, (o.fate r x p.catalog id).1 = .ok ()) ∧
    ∀ id, (p'.session? id).isSome ↔ id ∈ ids ∨ (p.session? id).isSome
  /-- Each is told to load once at most, and not if it was prepared before. -/
  once : ∀ id, loads id (p.heard r (o.prepareEach ids)) ≤ 1
  spared : ∀ id, (p.session? id).isSome → loads id (p.heard r (o.prepareEach ids)) = 0

theorem Prepared.none (h : Underway r x o p) : Prepared r x o p [] (.ok ()) p where
  run := rfl
  catalog := rfl
  failed := nofun
  done _ := ⟨h, nofun, fun id => by simp⟩
  once _ := Nat.zero_le _
  spared _ _ := rfl

/-- What is done with the others once one is prepared. -/
theorem prepareEach_cons (o : Opening) (id : String) (ids : List String) :
    o.prepareEach (id :: ids) = o.prepare id >>= fun
      | .error f => pure (.error f)
      | .ok () => o.prepareEach ids := rfl

theorem Prepared.stopped {p' : Pool ρ κ} {f : Failure} (first : Prepares r x o p id p')
    (hfate : (o.fate r x p.catalog id).1 = .error f) (ids : List String) :
    Prepared r x o p (id :: ids) (.error f) p' := by
  have hrun := first.run
  rw [hfate] at hrun
  have hheard : p.heard r (o.prepareEach (id :: ids)) = p.heard r (o.prepare id) := by
    rw [prepareEach_cons, Pool.heard_bind hrun]
    exact List.append_nil _
  refine ⟨Pool.run_bind hrun, first.catalog, ?_, nofun, fun j => ?_, fun j => ?_⟩
  · rintro f' ⟨⟩
    exact ⟨id, List.mem_cons_self, hfate⟩
  · rw [hheard]
    exact first.once.le_one j
  · rw [hheard]
    exact first.spared j

theorem Prepared.next {p₁ p' : Pool ρ κ} {y : Except Failure Unit} (first : Prepares r x o p id p₁)
    (hfate : (o.fate r x p.catalog id).1 = .ok ()) (rest : Prepared r x o p₁ ids y p') :
    Prepared r x o p (id :: ids) y p' := by
  have hrun := first.run
  rw [hfate] at hrun
  obtain ⟨-, hlive⟩ := first.done hfate
  have hsum : ∀ j, loads j (p.heard r (o.prepareEach (id :: ids))) =
      loads j (p.heard r (o.prepare id)) + loads j (p₁.heard r (o.prepareEach ids)) := by
    intro j
    rw [prepareEach_cons, Pool.heard_bind hrun]
    exact loads_append ..
  have hfailed := rest.failed
  have hdone := rest.done
  rw [first.catalog] at hfailed hdone
  refine ⟨(Pool.run_bind hrun).trans rest.run, rest.catalog.trans first.catalog, ?_, ?_, fun j => ?_, fun j hj => ?_⟩
  · rintro f hf
    obtain ⟨j, hj, herror⟩ := hfailed f hf
    exact ⟨j, List.mem_cons_of_mem _ hj, herror⟩
  · intro hy
    obtain ⟨hunderway, hall, hlive'⟩ := hdone hy
    refine ⟨hunderway, List.forall_mem_cons.2 ⟨hfate, hall⟩, fun j => ?_⟩
    rw [hlive', hlive, List.mem_cons]
    tauto
  · -- Once it is prepared it is told to load no more.
    rw [hsum]
    by_cases hj : j = id
    · rw [rest.spared j ((hlive j).2 (.inl hj))]
      exact first.once.le_one j
    · rw [first.once.2 j hj, Nat.zero_add]
      exact rest.once j
  · rw [hsum, first.spared j hj, rest.spared j ((hlive j).2 (.inr hj))]

theorem Underway.prepareEach (hr : r.Independent) (o : Opening) : ∀ (ids : List String) {p : Pool ρ κ},
    Underway r x o p → ∃ y p', Prepared r x o p ids y p'
  | [], p, h => ⟨_, p, .none h⟩
  | id :: ids, p, h => by
    obtain ⟨p₁, hfirst⟩ := h.prepare hr id
    cases hfate : (o.fate r x p.catalog id).1 with
    | error f => exact ⟨_, p₁, .stopped hfirst hfate ids⟩
    | ok =>
      obtain ⟨y, p', hrest⟩ := (hfirst.done hfate).1.prepareEach hr o ids
      exact ⟨y, p', .next hfirst hfate hrest⟩

/-- Preparing sessions makes no group. -/
theorem Underway.catalog_of_run (hr : r.Independent) (h : Underway r x o p) {y : Except Failure Unit} {p' : Pool ρ κ}
    (hrun : p.run r (o.prepareEach ids) = (.finished y, p')) : p'.catalog = p.catalog := by
  obtain ⟨y', q, hprepared⟩ := h.prepareEach hr o ids
  cases hprepared.run.symm.trans hrun
  exact hprepared.catalog

/-- What comes of saving. -/
structure Saved (r : Remote ρ κ) (x : ρ) (o : Opening) (p : Pool ρ κ) (ids : List String)
    (y : Except Failure (Table Json)) (p' : Pool ρ κ) : Prop where
  run : p.run r (o.save p.catalog ids) = (.finished y, p')
  /-- It fails as one of the sessions does. -/
  failed : ∀ f, y = .error f → ∃ id ∈ ids, (o.fate r x p.catalog id).1 = .error f
  /-- Otherwise none of them does, and each is there with what it tells. -/
  spared : ∀ t, y = .ok t → ∀ id ∈ ids, (o.fate r x p.catalog id).1 = .ok ()
  keys : ∀ t, y = .ok t → ∀ id, id ∈ Table.keys t ↔ id ∈ ids
  sorted : ∀ t, y = .ok t → Table.Sorted t
  told : ∀ t, y = .ok t →
    t = (Table.keys t).map fun id => (id, (Visit.save r x p.catalog id (o.fate r x p.catalog id).2).1)
  once : ∀ id, loads id (p.heard r (o.save p.catalog ids)) ≤ 1

/-- Asking for states loads nothing. -/
theorem loads_saveAll (hr : r.Prompt) (h : p.Orderly) (id : String) :
    loads id (p.heard r (Caller.saveAll p.catalog)) = 0 := by
  obtain ⟨rs, p', hrecalled, -⟩ := h.recalled hr
  refine List.countP_eq_zero.2 fun a ha hload => ?_
  obtain ⟨-, hcalls⟩ := Bool.and_eq_true_iff.1 hload
  have hcall : a.move.isCall = true := by
    cases hm : a.move with
    | call _ _ => rfl
    | _ => rw [hm] at hcalls; cases hcalls
  rw [hrecalled.only a ha hcall] at hcalls
  cases hcalls

/-- A pool of which nothing was asked yet. -/
theorem underway_made (hp : p.Made r) (x : ρ) (o : Opening) : Underway r x o p where
  rest := hp.rest.1
  orderly := hp.orderly
  fated id s hs := by
    rw [hp.absent id] at hs
    cases hs

/-- The states of sessions that were prepared. -/
theorem Underway.run_saveAll (hr : r.Independent) (h : Underway r x o p) : ∃ p',
    p.run r (Caller.saveAll p.catalog) = (.finished ((Table.keys p.registry).map fun id =>
      (id, (Visit.save r x p.catalog id (o.fate r x p.catalog id).2).1)), p') := by
  obtain ⟨p', hrun, -⟩ := Caller.run_saveEach hr x _ h.rest.sorted.keys_nodup h.rest rfl
  have hanswer : p.answer .ids = .went (Table.keys p.registry) p [] := rfl
  refine ⟨p', (Pool.run_answer rfl hanswer).trans (hrun.trans ?_)⟩
  refine congrArg (fun t => (Program.Progress.finished t, p')) (List.map_congr_left fun id hid => ?_)
  obtain ⟨s, hs⟩ := Option.isSome_iff_exists.1 (h.rest.mem_keys_iff.1 hid)
  rw [hs, (h.fated id s hs).1]

theorem saved_made (hr : r.Independent) (hp : p.Made r) (x : ρ) (o : Opening) (ids : List String) :
    ∃ y p', Saved r x o p ids y p' := by
  obtain ⟨y, p₁, h⟩ := (underway_made hp x o).prepareEach hr o ids
  have hrun := h.run
  cases y with
  | error f =>
    have hnone : ∀ t, (Except.error f : Except Failure (Table Json)) ≠ .ok t := by
      rintro t ⟨⟩
    refine ⟨.error f, p₁, Pool.run_bind hrun, ?_, fun t ht => absurd ht (hnone t), fun t ht => absurd ht (hnone t),
      fun t ht => absurd ht (hnone t), fun t ht => absurd ht (hnone t), fun id => ?_⟩
    · rintro f' ⟨⟩
      exact h.failed f rfl
    · rw [save, Pool.heard_bind hrun, loads_append]
      exact h.once id
  | ok =>
    obtain ⟨hunderway, hall, hlive⟩ := h.done rfl
    obtain ⟨p', hsave⟩ := hunderway.run_saveAll hr
    have hsilent := loads_saveAll hr.prompt hunderway.orderly
    rw [h.catalog] at hsave hsilent
    have htell : p₁.run r (do return .ok (← Caller.saveAll p.catalog)) = (.finished (Except.ok (ε := Failure) _), p') :=
      Pool.run_bind hsave
    have hkeys : Table.keys ((Table.keys p₁.registry).map fun id =>
        (id, (Visit.save r x p.catalog id (o.fate r x p.catalog id).2).1)) = Table.keys p₁.registry := by
      simp [Table.keys]
    refine ⟨_, p', (Pool.run_bind hrun).trans htell, ?_, fun _ _ => hall, ?_, ?_, ?_, fun id => ?_⟩
    · rintro f ⟨⟩
    · rintro t ⟨⟩ id
      rw [hkeys, hunderway.rest.mem_keys_iff, hlive, hp.absent id]
      simp
    · rintro t ⟨⟩
      refine List.pairwise_map.1 (?_ : List.Pairwise (· < ·) (Table.keys _))
      rw [hkeys]
      exact List.pairwise_map.2 hunderway.rest.sorted
    · rintro t ⟨⟩
      rw [hkeys]
    · rw [save, Pool.heard_bind hrun, loads_append, Pool.heard_bind hsave, loads_append, hsilent]
      exact h.once id

/-- What is saved depends on which sessions are named only. -/
theorem Saved.alike {ids' : List String} {y y' : Except Failure (Table Json)} {p₁ p₂ : Pool ρ κ}
    (h : Saved r x o p ids y p₁) (h' : Saved r x o p ids' y' p₂) (hids : ∀ id, id ∈ ids ↔ id ∈ ids') :
    y.toOption = y'.toOption := by
  cases y with
  | error f =>
    cases y' with
    | error f' => rfl
    | ok t' =>
      obtain ⟨id, hid, hfate⟩ := h.failed f rfl
      cases hfate.symm.trans (h'.spared t' rfl id ((hids id).1 hid))
  | ok t =>
    cases y' with
    | error f' =>
      obtain ⟨id, hid, hfate⟩ := h'.failed f' rfl
      cases hfate.symm.trans (h.spared t rfl id ((hids id).2 hid))
    | ok t' =>
      have hsorted := h.sorted t rfl
      have hsorted' := h'.sorted t' rfl
      have hperm : (Table.keys t).Perm (Table.keys t') :=
        (List.perm_ext_iff_of_nodup hsorted.keys_nodup hsorted'.keys_nodup).2 fun id =>
          (h.keys t rfl id).trans ((hids id).trans (h'.keys t' rfl id).symm)
      have hkeys : Table.keys t = Table.keys t' :=
        hperm.eq_of_pairwise (fun a b _ _ hab hba => absurd (String.lt_trans hab hba) (String.lt_irrefl a))
          (List.pairwise_map.2 hsorted) (List.pairwise_map.2 hsorted')
      rw [h.told t rfl, h'.told t' rfl, hkeys]

end Opening
end CommandLine
end SessionPool
