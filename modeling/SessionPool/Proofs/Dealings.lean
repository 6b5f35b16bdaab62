import SessionPool.Proofs.Interleaving
import SessionPool.Proofs.Sweep
import SessionPool.Proofs.Quiet

/-! Dealings: what the orders of callers come to on a quiet pool. Each order is a few deals, one after the
    other, and its result follows from them; which deals and which result is said case by case in `Makes`,
    and no program of a caller is opened again after this. -/

namespace SessionPool
variable {ρ κ α β : Type}

/-- Whether the session at a place is ready. -/
def Front.isReady (f : Front ρ κ) (n : Nat) : Bool := (f.shared.sessions[n]?.map Session.ready).getD false

/-- A session that is ready when a caller asks for it was there before. -/
theorem Front.Does.named_of_ready {r : Remote ρ κ} {f f' : Front ρ κ} {id : String} {n : Nat}
    (h : Front.Does r f (.obtained id n) f') (hready : f.isReady n = true) :
    Table.get? id f.registry = some n := by
  cases h with
  | found hn => exact hn
  | made hn hl =>
    rw [isReady, List.getElem?_eq_none (Nat.le_refl _)] at hready
    cases hready

/-- What comes of work that is sent. A worker that has ended refuses it, and of a job that died nothing
    comes but word of that. -/
inductive Sent (n : Nat) (v : Work) : Bool → Except PoolError Yield → List (Deal κ) → Prop
  | refused : Sent n v true (.error .workerClosed) []
  | worked {result : Option (Except PoolError Yield)} {heard : List (Heard κ)} :
      Sent n v false (result.getD (.error .workerClosed)) [.worked ⟨n, v, result, heard⟩]

/-- What comes of a load. -/
inductive Loads (f : Front ρ κ) (id : String) (state : Json) (extra : Fields) (check : Bool) :
    Except PoolError LoadOutcome → List (Deal κ) → Prop
  | unknown (hn : Table.get? id f.registry = none)
      (hl : f.catalog.locator? (SessionKey.parse id).group = none) :
      Loads f id state extra check (.error (.unknownGroup (SessionKey.parse id).group)) []
  | already {n : Nat} (hready : f.isReady n = true) :
      Loads f id state extra check (.ok .alreadyInitialized) [.obtained id n]
  | empty {n : Nat} (hready : f.isReady n = false) (hempty : isEmptyScenario state = true) :
      Loads f id state extra check (.ok .emptyScenario) [.obtained id n]
  | sent {n : Nat} {y : Except PoolError Yield} {ds : List (Deal κ)} (hready : f.isReady n = false)
      (hstate : isEmptyScenario state = false) (sent : Sent n (.load state extra check) f.ended y ds) :
      Loads f id state extra check (y.map Yield.toOutcome) (.obtained id n :: ds)

/-- What comes of a call. -/
inductive Calls (f : Front ρ κ) (id operation : String) (args : Fields) :
    Except PoolError Normalized → List (Deal κ) → Prop
  | unknown (hn : Table.get? id f.registry = none)
      (hl : f.catalog.locator? (SessionKey.parse id).group = none) :
      Calls f id operation args (.error (.unknownGroup (SessionKey.parse id).group)) []
  | plain {n : Nat} {y : Except PoolError Yield} {ds : List (Deal κ)}
      (hready : f.isReady n = true ∨ f.catalog.isStateless (SessionKey.parse id).group = false)
      (sent : Sent n (.call operation args) f.ended y ds) :
      Calls f id operation args (y.map Yield.normalized) (.obtained id n :: ds)
  | stateless {n : Nat} {y : Except PoolError Yield} {ds : List (Deal κ)}
      (hstateless : f.catalog.isStateless (SessionKey.parse id).group = true)
      (sent : Sent n (.call operation args) f.ended y ds) :
      Calls f id operation args (y.map Yield.normalized) (.obtained id n :: .marked id n :: ds)

/-- What comes of an invocation. -/
inductive Invokes (f : Front ρ κ) (id name : String) (args : Arguments) :
    Except PoolError Normalized → List (Deal κ) → Prop
  | malformed {e : PoolError} (hargs : args.fields = .error e) : Invokes f id name args (.error e) []
  | loads {fields : Fields} {y : Except PoolError LoadOutcome} {ds : List (Deal κ)}
      (hargs : args.fields = .ok fields) (hload : isLoad (operationName name) = true)
      (loads : Loads f id (Arguments.splitScenario fields).1 (Arguments.splitScenario fields).2 false y ds) :
      Invokes f id name args (y.map Normalized.ofOutcome) ds
  | calls {fields : Fields} {y : Except PoolError Normalized} {ds : List (Deal κ)}
      (hargs : args.fields = .ok fields) (hload : isLoad (operationName name) = false)
      (calls : Calls f id (operationName name) fields y ds) : Invokes f id name args y ds

/-- The state that a session told, if it did. -/
def told? : Except PoolError Normalized → Json
  | .ok n => n.value
  | .error _ => .null

/-- What comes of asking sessions for their states, one after the other. -/
inductive Saves (r : Remote ρ κ) : Front ρ κ → List String → Table Json → List (Deal κ) → Front ρ κ → Prop
  | none {f : Front ρ κ} : Saves r f [] [] [] f
  | next {f f₁ f₂ : Front ρ κ} {id : String} {ids : List String} {y : Except PoolError Normalized}
      {t : Table Json} {ds ds' : List (Deal κ)} (calls : Calls f id saveScenario [] y ds)
      (deals : Front.Deals r f ds f₁) (later : Saves r f₁ ids t ds' f₂) :
      Saves r f (id :: ids) ((id, told? y) :: t) (ds ++ ds') f₂

/-- What comes of closing all sessions: they are all taken out of the registry, then released, and the log
    is cleared last. -/
inductive Sweeps : List (Deal κ) → Prop
  | intro {ds : List (Stint κ)} (releases : ∀ d ∈ ds, d.work = .release) :
      Sweeps (.drained :: ds.map .worked ++ [.cleared])

/-- What comes of sending the releases of sessions: each is refused by a worker that has ended, and is done
    otherwise, in this order. -/
inductive Released (t : Table Nat) : Bool → Table (Except PoolError Yield) → List (Stint κ) → Prop
  | refused : Released t true (t.map fun e => (e.1, .error .workerClosed)) []
  | worked {ds : List (Stint κ)} (hds : ds.map (fun d => (d.place, d.work)) = t.map fun e => (e.2, .release)) :
      Released t false (t.zipWith (fun e d => (e.1, d.result.getD (.error .workerClosed))) ds) ds

/-- What comes of an order on a quiet pool. -/
inductive Order.Makes (r : Remote ρ κ) (f : Front ρ κ) : Order → Response → List (Deal κ) → Front ρ κ → Prop
  | unknown {id : String} {f' : Front ρ κ} (hn : Table.get? id f.registry = none) :
      Makes r f (.obtain id) (.found (.error (.unknownGroup (SessionKey.parse id).group))) [] f'
  | obtained {id : String} {n : Nat} {f' : Front ρ κ} :
      Makes r f (.obtain id) (.found (.ok (n, f.isReady n))) [.obtained id n] f'
  | invoked {id name : String} {args : Arguments} {y : Except PoolError Normalized} {ds : List (Deal κ)}
      {f' : Front ρ κ} (invokes : Invokes f id name args y ds) :
      Makes r f (.invoke id name args) (.result y) ds f'
  | loaded {id : String} {state : Json} {extra : Fields} {check : Bool} {y : Except PoolError LoadOutcome}
      {ds : List (Deal κ)} {f' : Front ρ κ} (loads : Loads f id state extra check y ds) :
      Makes r f (.load id state extra check) (.outcome y) ds f'
  | absent {id : String} {f' : Front ρ κ} (hn : Table.get? id f.registry = none) :
      Makes r f (.close id) (.closed (.ok false)) [.removed id] f'
  | closed {id : String} {n : Nat} {y : Except PoolError Yield} {ds : List (Deal κ)} {f' : Front ρ κ}
      (hn : Table.get? id f.registry = some n) (sent : Sent n .release f.ended y ds) :
      Makes r f (.close id) (.closed ((y.mapError (PoolError.toClose id)).map fun _ => true))
        (.removed id :: ds) f'
  | swept {report : CloseReport} {ds : List (Deal κ)} {f' : Front ρ κ} (sweeps : Sweeps ds) :
      Makes r f .closeAll (.report report) ds f'
  | saved {t : Table Json} {ds : List (Deal κ)} {f' : Front ρ κ}
      (saves : Saves r f (Table.keys f.registry) t ds f') : Makes r f .saveAll (.states t) ds f'
  | ended {within : Nat} {report : ShutdownReport} {ds : List (Deal κ)} {f' : Front ρ κ} (sweeps : Sweeps ds) :
      Makes r f (.shutdown within) (.ended report) (ds ++ [.stopped]) f'

theorem Sent.inversion {n : Nat} {v : Work} {ended : Bool} {y : Except PoolError Yield} {ds : List (Deal κ)}
    (h : Sent n v ended y ds) : (ended = true ∧ y = .error .workerClosed ∧ ds = []) ∨
      ∃ result heard, ended = false ∧ y = result.getD (.error .workerClosed) ∧
        ds = [.worked ⟨n, v, result, heard⟩] := by
  cases h with
  | refused => exact .inl ⟨rfl, rfl, rfl⟩
  | worked => exact .inr ⟨_, _, rfl, rfl, rfl⟩

/-- A worker that has not ended does what is sent. -/
theorem Sent.running {n : Nat} {v : Work} {ended : Bool} {y : Except PoolError Yield} {ds : List (Deal κ)}
    (h : Sent n v ended y ds) (hended : ended = false) :
    ∃ result heard, y = result.getD (.error .workerClosed) ∧ ds = [.worked ⟨n, v, result, heard⟩] := by
  rcases h.inversion with ⟨hyes, -⟩ | ⟨result, heard, -, hy, hds⟩
  · rw [hended] at hyes
    cases hyes
  · exact ⟨result, heard, hy, hds⟩

theorem Sent.mem {n : Nat} {v : Work} {ended : Bool} {y : Except PoolError Yield} {ds : List (Deal κ)}
    {d : Deal κ} (h : Sent n v ended y ds) (hd : d ∈ ds) : ∃ result heard, d = .worked ⟨n, v, result, heard⟩ := by
  cases h with
  | refused => cases hd
  | worked => exact ⟨_, _, List.mem_singleton.1 hd⟩

theorem Released.sweeps {t : Table Nat} {b : Bool} {ys : Table (Except PoolError Yield)} {ds : List (Stint κ)}
    (h : Released t b ys ds) : Sweeps (.drained :: ds.map .worked ++ [.cleared]) := by
  refine .intro fun d hd => ?_
  cases h with
  | refused => cases hd
  | worked hds =>
    have hmem : (d.place, d.work) ∈ t.map fun e => (e.2, Work.release) := hds ▸ List.mem_map_of_mem hd
    obtain ⟨e, -, heq⟩ := List.mem_map.1 hmem
    exact (Prod.mk.inj heq).2.symm

namespace Calls
variable {r : Remote ρ κ} {f f' : Front ρ κ} {id operation : String} {args : Fields}
  {y : Except PoolError Normalized} {ds : List (Deal κ)} {n : Nat}

/-- The deals of a call on a session are to get it, perhaps to mark it, and to work on it. -/
theorem mem {d : Deal κ} (h : Calls f id operation args y ds) (hd : d ∈ ds) :
    (∃ n, d = .obtained id n) ∨
      (∃ n, d = .marked id n ∧ f.catalog.isStateless (SessionKey.parse id).group = true) ∨
        ∃ n result heard, d = .worked ⟨n, .call operation args, result, heard⟩ := by
  cases h with
  | unknown => cases hd
  | plain hready hsent =>
    rcases List.mem_cons.1 hd with rfl | hd
    · exact .inl ⟨_, rfl⟩
    · exact .inr (.inr ⟨_, hsent.mem hd⟩)
  | stateless hstateless hsent =>
    rcases List.mem_cons.1 hd with rfl | hd
    · exact .inl ⟨_, rfl⟩
    rcases List.mem_cons.1 hd with rfl | hd
    · exact .inr (.inl ⟨_, rfl, hstateless⟩)
    · exact .inr (.inr ⟨_, hsent.mem hd⟩)

theorem keeps (h : Calls f id operation args y ds) (j : String) : ∀ d ∈ ds, d.removes j = false := by
  intro d hd
  rcases h.mem hd with ⟨n, rfl⟩ | ⟨n, rfl, -⟩ | ⟨n, result, heard, rfl⟩ <;> rfl

/-- The place where a call works is named by its id. -/
theorem place (h : Calls f id operation args y ds) (hdeals : Front.Deals r f ds f') {d : Stint κ}
    (hd : .worked d ∈ ds) : Table.get? id f'.registry = some d.place := by
  have hkeeps := h.keeps id
  cases h with
  | unknown => cases hd
  | plain hready hsent =>
    rcases List.mem_cons.1 hd with heq | hd
    · cases heq
    · obtain ⟨result, heard, heq⟩ := hsent.mem hd
      cases heq
      exact hdeals.names_obtained fun d hd => hkeeps d (List.mem_cons_of_mem _ hd)
  | stateless hstateless hsent =>
    rcases List.mem_cons.1 hd with heq | hd
    · cases heq
    rcases List.mem_cons.1 hd with heq | hd
    · cases heq
    · obtain ⟨result, heard, heq⟩ := hsent.mem hd
      cases heq
      exact hdeals.names_obtained fun d hd => hkeeps d (List.mem_cons_of_mem _ hd)

/-- A call on a live session ends with a job there, which gives its result. -/
theorem job (h : Calls f id operation args y ds) (hdeals : Front.Deals r f ds f') (hrunning : f.ended = false)
    (hn : Table.get? id f.registry = some n) : ∃ before result heard,
      ds = before ++ [.worked ⟨n, .call operation args, result, heard⟩] ∧
        y = (result.getD (.error .workerClosed)).map Yield.normalized := by
  have hplace : ∀ {d}, .worked d ∈ ds → d.place = n := fun hd =>
    Option.some.inj ((h.place hdeals hd).symm.trans (hdeals.names (h.keeps id) hn))
  cases h with
  | unknown hnone =>
    rw [hn] at hnone
    cases hnone
  | @plain m y ds hready hsent =>
    obtain ⟨result, heard, rfl, rfl⟩ := hsent.running hrunning
    cases hplace (List.mem_cons_of_mem _ List.mem_cons_self)
    exact ⟨[.obtained id m], result, heard, rfl, rfl⟩
  | @stateless m y ds hstateless hsent =>
    obtain ⟨result, heard, rfl, rfl⟩ := hsent.running hrunning
    cases hplace (List.mem_cons_of_mem _ (List.mem_cons_of_mem _ List.mem_cons_self))
    exact ⟨[.obtained id m, .marked id m], result, heard, rfl, rfl⟩

end Calls

namespace Saves
variable {r : Remote ρ κ} {f f' : Front ρ κ} {ids : List String} {t : Table Json} {ds : List (Deal κ)}

theorem deals (h : Saves r f ids t ds f') : Front.Deals r f ds f' := by
  induction h with
  | none => exact .none
  | next _ hdeals _ ih => exact hdeals.append ih

/-- Every deal is with a session that is asked for its state. -/
theorem mem {d : Deal κ} (h : Saves r f ids t ds f') (hd : d ∈ ds) : ∃ id ∈ ids, ∃ g : Front ρ κ,
    g.catalog = f.catalog ∧ ∃ y ds', Calls g id saveScenario [] y ds' ∧ d ∈ ds' := by
  induction h with
  | none => cases hd
  | next hcalls hdeals _ ih =>
    rcases List.mem_append.1 hd with hd | hd
    · exact ⟨_, List.mem_cons_self, _, rfl, _, _, hcalls, hd⟩
    · obtain ⟨id, hid, g, hg, hrest⟩ := ih hd
      exact ⟨id, List.mem_cons_of_mem _ hid, g, hg.trans hdeals.catalog, hrest⟩

/-- Asking all sessions for their states makes no session. -/
theorem names {id : String} {n : Nat} (h : Saves r f (Table.keys f.registry) t ds f') (ht : f.Tidy)
    (hn : Table.get? id f'.registry = some n) : Table.get? id f.registry = some n := by
  have hkeeps : ∀ d ∈ ds, d.removes id = false := by
    intro d hd
    obtain ⟨j, -, g, -, y, ds', hcalls, hd⟩ := h.mem hd
    exact hcalls.keeps id d hd
  rcases h.deals.names_of ht hn with hn | hmem
  · exact hn
  · obtain ⟨j, hj, g, -, y, ds', hcalls, hd⟩ := h.mem hmem
    rcases hcalls.mem hd with ⟨m, heq⟩ | ⟨m, heq, -⟩ | ⟨m, result, heard, heq⟩ <;> cases heq
    obtain ⟨m, hm⟩ := Option.isSome_iff_exists.1 ((Table.mem_keys_iff ht.sorted).1 hj)
    rw [h.deals.names hkeeps hm] at hn
    rw [hm, Option.some.inj hn]

end Saves

namespace Pool
variable {r : Remote ρ κ} {p p₁ p' : Pool ρ κ} {c : Caller α} {f : α → Caller β} {y : α} {z : β}
  {ds ds' : List (Deal κ)} {a : Ask} {reply : a.Reply} {next : a.Reply → Caller α} {id : String} {n : Nat}

/-- A caller runs to its end, which comes to deals. -/
structure Runs (r : Remote ρ κ) (p : Pool ρ κ) (c : Caller α) (y : α) (ds : List (Deal κ)) (p' : Pool ρ κ) :
    Prop where
  run : p.run r c = (.finished y, p')
  heard : p.heard r c = ds.flatMap Deal.heard
  deals : Front.Deals r p.front ds p'.front

theorem Runs.done (r : Remote ρ κ) (p : Pool ρ κ) (y : α) : p.Runs r (Program.done y) y [] p :=
  ⟨rfl, rfl, .none⟩

theorem Runs.bind (h : p.Runs r c y ds p₁) (h' : p₁.Runs r (f y) z ds' p') :
    p.Runs r (c >>= f) z (ds ++ ds') p' := by
  refine ⟨(run_bind h.run).trans h'.run, ?_, h.deals.append h'.deals⟩
  rw [heard_bind h.run, h.heard, h'.heard, List.flatMap_append]

/-- A caller whose result is only put in another form. -/
theorem Runs.pure (h : p.Runs r c y ds p') (hf : f y = Program.done z) : p.Runs r (c >>= f) z ds p' := by
  have h' := h.bind (hf ▸ Runs.done r p' z)
  rwa [List.append_nil] at h'

/-- An action that needs no waiting. -/
theorem Runs.ask (hw : waits a = false) (ha : p.answer a = .went reply p' [])
    (hd : Front.Deals r p.front ds p'.front) (hh : ds.flatMap Deal.heard = []) :
    p.Runs r (Caller.act a) reply ds p' := by
  have hhost : host r false a p = .went reply p' [] := by
    rw [host, if_neg (by rw [hw]; exact Bool.false_ne_true)]
    exact ha
  refine ⟨run_answer hw ha, ?_, hd⟩
  rw [hh, Caller.act, Program.ask, Pool.heard, hw, hhost]
  rfl

/-- A caller that waits might as well begin when the worker has come to rest. -/
theorem Runs.of_settled (hw : waits a = true) (hquiet : (p.settle r).Quiet)
    (hd : Front.Deals r p.front ds (p.settle r).front) (hh : p.overheard r = ds.flatMap Deal.heard)
    (h : (p.settle r).Runs r (Program.act a next) y ds' p') :
    p.Runs r (Program.act a next) y (ds ++ ds') p' := by
  obtain ⟨hsettled, hsilent⟩ := hquiet.settle r
  have hhost : host r false a (p.settle r) = host r false a p := by
    rw [host, host, if_pos hw, if_pos hw, hsettled]
  have hrun : p.run r (Program.act a next) = (p.settle r).run r (Program.act a next) := by
    simp only [Pool.run, Program.advance, hhost]
  refine ⟨hrun.trans h.run, ?_, hd.append h.deals⟩
  have hheard := h.heard
  simp only [Pool.heard, hw, if_true, hsilent, hhost, List.nil_append] at hheard ⊢
  rw [hh, hheard, List.flatMap_append]

theorem isReady_length (p : Pool ρ κ) : p.isReady p.shared.sessions.length = false := by
  rw [isReady, List.getElem?_eq_none (Nat.le_refl _)]
  rfl

/-- A session is found or made, unless its group is not in the catalog. -/
theorem Quiet.runs_obtain (h : p.Quiet) (r : Remote ρ κ) (id : String) :
    (Table.get? id p.registry = none ∧ p.catalog.locator? (SessionKey.parse id).group = none ∧
      p.Runs r (Caller.act (.obtain id)) (.error (.unknownGroup (SessionKey.parse id).group)) [] p) ∨
    ∃ n p₁, p.Runs r (Caller.act (.obtain id)) (.ok (n, p.isReady n)) [.obtained id n] p₁ ∧ p₁.Quiet ∧
      Table.get? id p₁.registry = some n ∧ p₁.catalog = p.catalog ∧ p₁.worker = p.worker := by
  cases hn : Table.get? id p.registry with
  | some n =>
    have hanswer : p.answer (.obtain id) = .went (.ok (n, p.isReady n)) p [] := by
      simp only [answer, obtain, hn]
    exact .inr ⟨n, p, .ask rfl hanswer (.one (.found hn)) rfl, h, hn, rfl, rfl⟩
  | none =>
    cases hl : p.catalog.locator? (SessionKey.parse id).group with
    | none =>
      have hanswer : p.answer (.obtain id) = .went (.error (.unknownGroup (SessionKey.parse id).group)) p [] := by
        simp only [answer, obtain, hn, hl]
      exact .inl ⟨rfl, rfl, .ask rfl hanswer .none rfl⟩
    | some l =>
      have hnew := isReady_length p
      have hanswer : p.answer (.obtain id) =
          .went (.ok (p.shared.sessions.length, p.isReady p.shared.sessions.length)) { p with
            registry := p.registry.insert id p.shared.sessions.length
            shared := { p.shared with sessions := p.shared.sessions ++ [{ id := id, locator := l }] } } [] := by
        simp only [answer, obtain, hn, hl, hnew]
      have hdoes := Front.Does.made (r := r) (f := p.front) hn hl
      have hruns := Runs.ask (r := r) rfl hanswer (.one hdoes) rfl
      exact .inr ⟨_, _, hruns, h.of_worker rfl (hdoes.tidy h.tidy), Table.get?_insert_self .., rfl, rfl⟩

/-- A live session is marked ready. -/
theorem Quiet.runs_mark (h : p.Quiet) (r : Remote ρ κ) (hn : Table.get? id p.registry = some n) :
    p.Runs r (Caller.act (.markReady id)) () [.marked id n] (p.markReady id) ∧ (p.markReady id).Quiet ∧
      (p.markReady id).worker = p.worker ∧ n < (p.markReady id).shared.sessions.length := by
  obtain ⟨s, hs, -⟩ := h.tidy.named id n hn
  have hpool : p.markReady id = { p with shared := p.shared.put n { s with ready := true } } := by
    rw [markReady, hn]
    simp only [show p.shared.sessions[n]? = some s from hs]
  have hdoes := Front.Does.marked (r := r) (f := p.front) hn hs
  have hanswer : p.answer (.markReady id) = .went () (p.markReady id) [] := rfl
  rw [hpool] at hanswer ⊢
  refine ⟨.ask rfl hanswer (.one hdoes) rfl, h.of_worker rfl (hdoes.tidy h.tidy), rfl, ?_⟩
  rw [Shared.put, List.length_set]
  exact (List.getElem?_eq_some_iff.1 hs).1

theorem Quiet.runs_await (h : p.Quiet) (r : Remote ρ κ) {t : Nat} {result : Except PoolError Yield}
    (hresult : p.worker.result? t = some result) : p.Runs r (Caller.act (.await t)) result [] p := by
  obtain ⟨hsettled, hsilent⟩ := h.settle r
  have hhost : host r false (.await t) p = .went result p [] := by
    simp only [host, waits, if_true, hsettled, answer, hresult]
  refine ⟨run_went hhost, ?_, .none⟩
  simp only [Caller.act, Program.ask, Pool.heard, waits, if_true, hsilent, hhost]
  rfl

/-- Work that is sent is done, unless the worker has ended. -/
theorem Quiet.runs_send (h : p.Quiet) (hr : r.Prompt) (hn : n < p.shared.sessions.length) {v : Work}
    (hv : v.Proper p.registry n) : ∃ y ds p', p.Runs r (Caller.send n v) y ds p' ∧ p'.Quiet ∧
      Sent n v p.worker.ended y ds := by
  cases hended : p.worker.ended with
  | true =>
    have hanswer : p.answer (.submit n v) = .went (.error .workerClosed) p [] := by
      simp only [answer, Worker.submit, hended, if_true]
    exact ⟨_, _, p, (Runs.ask rfl hanswer .none rfl).pure rfl, h, .refused⟩
  | false =>
    have hplace : ∀ q ∈ [Post.mk n p.shared.sessions[n] v],
        q.place < p.shared.sessions.length ∧ q.work.Proper p.registry q.place := by
      intro q hq
      cases List.mem_singleton.1 hq
      exact ⟨hn, hv⟩
    obtain ⟨ds, hquiet, hjobs, hheard, hposts, hdeals⟩ := h.settle_posted hr hended hplace
    obtain ⟨⟨place, work, result, heard⟩, rfl⟩ : ∃ d, ds = [d] := by
      cases ds with
      | nil => cases hposts
      | cons d ds =>
        cases ds with
        | nil => exact ⟨d, rfl⟩
        | cons d' ds => cases hposts
    cases hposts
    have hresult : ((p.posted [⟨n, p.shared.sessions[n], v⟩]).settle r).worker.result?
        p.worker.jobs.length = some (result.getD (.error .workerClosed)) := by
      refine result_ended hjobs ?_
      rw [List.getElem?_append_right (Nat.le_refl _), Nat.sub_self]
      rfl
    have hsubmit : p.Runs r (Caller.act (.submit n v)) (.ok p.worker.jobs.length) []
        (p.posted [⟨n, p.shared.sessions[n], v⟩]) := .ask rfl (answer_submit hended ⟨n, _, v⟩) .none rfl
    have hawait : (p.posted [⟨n, p.shared.sessions[n], v⟩]).Runs r (Caller.act (.await p.worker.jobs.length))
        (result.getD (.error .workerClosed)) ([.worked ⟨n, v, result, heard⟩] ++ []) _ :=
      .of_settled rfl hquiet hdeals (by rw [hheard]; rfl) (hquiet.runs_await r hresult)
    exact ⟨_, _, _, hsubmit.bind hawait, hquiet, .worked⟩

theorem Quiet.runs_loadWith (h : p.Quiet) (hr : r.Prompt) (id : String) (state : Json) (extra : Fields)
    (check : Bool) : ∃ y ds p', p.Runs r (Caller.loadWith id state extra check) y ds p' ∧ p'.Quiet ∧
      Loads p.front id state extra check y ds := by
  rcases h.runs_obtain r id with ⟨hn, hl, hruns⟩ | ⟨n, p₁, hruns, hquiet, hn, -, hworker⟩
  · exact ⟨_, _, p, hruns.pure rfl, h, .unknown hn hl⟩
  cases hready : p.isReady n with
  | true =>
    rw [hready] at hruns
    exact ⟨_, _, p₁, hruns.pure rfl, hquiet, .already hready⟩
  | false =>
    rw [hready] at hruns
    cases hempty : isEmptyScenario state with
    | true =>
      refine ⟨_, _, p₁, hruns.pure ?_, hquiet, .empty hready hempty⟩
      simp only [hempty]
      rfl
    | false =>
      obtain ⟨y, ds, p', hsend, hquiet', hsent⟩ :=
        hquiet.runs_send hr (hquiet.lt_of_get? hn) (v := .load state extra check) nofun
      rw [hworker] at hsent
      refine ⟨_, _, p', hruns.bind ?_, hquiet', .sent hready hempty hsent⟩
      simp only [hempty]
      exact hsend.pure rfl

theorem Quiet.runs_call (h : p.Quiet) (hr : r.Prompt) (id operation : String) (args : Fields) :
    ∃ y ds p', p.Runs r (Caller.call p.catalog id operation args) y ds p' ∧ p'.Quiet ∧
      Calls p.front id operation args y ds := by
  rcases h.runs_obtain r id with ⟨hn, hl, hruns⟩ | ⟨n, p₁, hruns, hquiet, hn, -, hworker⟩
  · exact ⟨_, _, p, hruns.pure rfl, h, .unknown hn hl⟩
  cases hmark : !p.isReady n && p.catalog.isStateless (SessionKey.parse id).group with
  | false =>
    obtain ⟨y, ds, p', hsend, hquiet', hsent⟩ :=
      hquiet.runs_send hr (hquiet.lt_of_get? hn) (v := .call operation args) nofun
    rw [hworker] at hsent
    refine ⟨_, _, p', hruns.bind ?_, hquiet', .plain ?_ hsent⟩
    · simp only [hmark]
      exact hsend.pure rfl
    · rcases Bool.and_eq_false_iff.1 hmark with hready | hstateless
      · exact .inl (Bool.not_eq_false' .. ▸ hready)
      · exact .inr hstateless
  | true =>
    obtain ⟨hmarks, hquiet₁, hworker₁, hlt⟩ := hquiet.runs_mark r hn
    obtain ⟨y, ds, p', hsend, hquiet', hsent⟩ :=
      hquiet₁.runs_send hr hlt (v := .call operation args) nofun
    rw [hworker₁, hworker] at hsent
    refine ⟨_, _, p', hruns.bind ?_, hquiet', .stateless (Bool.and_eq_true_iff.1 hmark).2 hsent⟩
    simp only [hmark]
    exact hmarks.bind (hsend.pure rfl)

theorem Quiet.runs_invoke (h : p.Quiet) (hr : r.Prompt) (id name : String) (args : Arguments) :
    ∃ y ds p', p.Runs r (Caller.invoke p.catalog id name args) y ds p' ∧ p'.Quiet ∧
      Invokes p.front id name args y ds := by
  rw [Caller.invoke]
  cases hargs : args.fields with
  | error e => exact ⟨_, _, p, .done r p _, h, .malformed hargs⟩
  | ok fields =>
    cases hload : isLoad (operationName name) with
    | true =>
      obtain ⟨y, ds, p', hruns, hquiet, hloads⟩ := h.runs_loadWith hr id
        (Arguments.splitScenario fields).1 (Arguments.splitScenario fields).2 false
      simp only [hload, if_true]
      exact ⟨_, _, p', hruns.pure rfl, hquiet, .loads hargs hload hloads⟩
    | false =>
      obtain ⟨y, ds, p', hruns, hquiet, hcalls⟩ := h.runs_call hr id (operationName name) fields
      simp only [hload, Bool.false_eq_true, if_false]
      exact ⟨_, _, p', hruns, hquiet, .calls hargs hload hcalls⟩

/-- A session is taken out of the registry before it is released. -/
theorem Quiet.runs_close (h : p.Quiet) (hr : r.Prompt) (id : String) :
    ∃ y ds p', p.Runs r (Caller.close id) y ds p' ∧ p'.Quiet ∧
      Order.Makes r p.front (.close id) (.closed y) ds p'.front := by
  have hdoes : Front.Does r p.front (.removed id) _ := .removed
  have hanswer : p.answer (.remove id) =
      .went (Table.get? id p.registry) { p with registry := p.registry.erase id } [] := rfl
  have hruns := Runs.ask (r := r) rfl hanswer (.one hdoes) rfl
  have hquiet : Quiet { p with registry := p.registry.erase id } := h.of_worker rfl (hdoes.tidy h.tidy)
  cases hn : Table.get? id p.registry with
  | none =>
    rw [hn] at hruns
    exact ⟨_, _, _, hruns.pure rfl, hquiet, .absent hn⟩
  | some n =>
    rw [hn] at hruns
    obtain ⟨y, ds, p', hsend, hquiet', hsent⟩ := hquiet.runs_send hr (h.lt_of_get? hn) (h.tidy.proper_removed hn)
    refine ⟨_, _, p', hruns.bind (hsend.pure ?_), hquiet', .closed hn hsent⟩
    cases y <;> rfl

/-- Sessions are asked for their states one after the other, as if by as many invocations. -/
theorem Quiet.runs_saveEach (hr : r.Prompt) (c : Catalog) : ∀ (ids : List String) {p : Pool ρ κ}, p.Quiet →
    p.catalog = c → ∃ t ds p', p.Runs r (Caller.saveEach c ids) t ds p' ∧ p'.Quiet ∧
      Saves r p.front ids t ds p'.front := by
  intro ids
  induction ids with
  | nil =>
    intro p h _
    exact ⟨_, _, p, .done r p _, h, .none⟩
  | cons id ids ih =>
    intro p h hc
    obtain ⟨y, ds, p₁, hruns, hquiet, hinvokes⟩ := h.runs_invoke hr id saveScenario (.structured [])
    rw [hc] at hruns
    obtain ⟨t, ds', p', hrest, hquiet', hsaves⟩ := ih hquiet (hruns.deals.catalog.trans hc)
    have hcalls : Calls p.front id saveScenario [] y ds := by
      have hname : operationName saveScenario = saveScenario := by decide
      have hload : isLoad saveScenario = false := by decide
      cases hinvokes with
      | malformed hargs => cases hargs
      | loads _ hyes =>
        rw [hname, hload] at hyes
        cases hyes
      | calls hargs _ hcalls =>
        cases hargs
        rwa [hname] at hcalls
    refine ⟨_, _, p', hruns.bind (hrest.pure ?_), hquiet', .next hcalls hruns.deals hsaves⟩
    cases y <;> rfl

/-- What is told of what was sent, once it is done. -/
def gives (p : Pool ρ κ) : Except PoolError Nat → Except PoolError Yield
  | .error e => .error e
  | .ok ticket => (p.worker.result? ticket).getD (.error .workerClosed)

/-- In a quiet pool all that was sent is done, and is waited for no longer. -/
theorem Quiet.runs_awaitEach (h : p.Quiet) (r : Remote ρ κ) : ∀ t : Table (Except PoolError Nat),
    p.Runs r (Caller.awaitEach t) (.of (t.map fun e => (e.1, p.gives e.2))) [] p := by
  intro t
  induction t with
  | nil => exact .done r p _
  | cons e t ih =>
    obtain ⟨id, ticket⟩ := e
    have hsent : p.Runs r (Caller.awaitSent ticket) (p.gives ticket) [] p := by
      cases ticket with
      | error e => exact .done r p _
      | ok ticket =>
        obtain ⟨y, hresult⟩ := Worker.exists_result (h.settled ticket)
        rw [gives, hresult]
        exact h.runs_await r hresult
    refine hsent.bind (ih.pure ?_)
    rw [List.map_cons, CloseReport.of]
    cases p.gives ticket <;> rfl

/-- A worker that has ended refuses all releases. -/
theorem runs_releaseEach_ended (r : Remote ρ κ) (hended : p.worker.ended = true) : ∀ t : Table Nat,
    p.Runs r (Caller.releaseEach t) (t.map fun e => (e.1, .error .workerClosed)) [] p := by
  intro t
  induction t with
  | nil => exact .done r p _
  | cons e t ih =>
    have hanswer : p.answer (.submit e.2 .release) = .went (.error .workerClosed) p [] := by
      simp only [answer, Worker.submit, hended, if_true]
    exact (Runs.ask rfl hanswer .none rfl).bind (ih.pure rfl)

/-- Releases are all sent before the first is waited for. -/
theorem runs_releaseEach (r : Remote ρ κ) : ∀ (posts : List (Post κ)) {p : Pool ρ κ}, p.worker.ended = false →
    (∀ q ∈ posts, q.work = .release) → p.Runs r (Caller.releaseEach (Caller.places posts))
      (Caller.tickets posts p.worker.jobs.length) [] (p.posted posts) := by
  intro posts
  induction posts with
  | nil =>
    intro p _ _
    rw [posted_nil]
    exact .done r p _
  | cons q posts ih =>
    intro p hended hwork
    have hanswer := answer_submit hended q
    rw [hwork q List.mem_cons_self] at hanswer
    have hrest := ih (p := p.posted [q]) hended fun q' hq' => hwork q' (List.mem_cons_of_mem _ hq')
    rw [posted_append] at hrest
    have hlength : (p.posted [q]).worker.jobs.length = p.worker.jobs.length + 1 := List.length_append ..
    rw [hlength] at hrest
    exact (Runs.ask rfl hanswer .none rfl).bind (hrest.pure rfl)

/-- What is told of releases that were done. -/
theorem gives_tickets : ∀ {posts : List (Post κ)} {ds : List (Stint κ)} {jobs : List (Job (Deed κ) Deed.Reply Yield)},
    p.worker.jobs = jobs ++ ds.map (fun d => .ended d.result) → posts.length = ds.length →
    (Caller.tickets posts jobs.length).map (fun e => (e.1, p.gives e.2)) =
      (Caller.places posts).zipWith (fun e d => (e.1, d.result.getD (.error .workerClosed))) ds
  | [], _, _, _, _ => rfl
  | q :: posts, d :: ds, jobs, hjobs, hlength => by
    have hfirst : p.gives (.ok jobs.length) = d.result.getD (.error .workerClosed) := by
      have hjob : (jobs ++ (d :: ds).map fun d => .ended d.result)[jobs.length]? = some (.ended d.result) := by
        rw [List.getElem?_append_right (Nat.le_refl _), Nat.sub_self]
        rfl
      rw [gives, result_ended hjobs hjob, Option.getD_some]
    have hrest : (Caller.tickets posts (jobs ++ [Job.ended d.result]).length).map (fun e => (e.1, p.gives e.2)) =
        (Caller.places posts).zipWith (fun e d => (e.1, d.result.getD (.error .workerClosed))) ds :=
      gives_tickets (by rw [hjobs, List.append_assoc]; rfl) (Nat.succ.inj hlength)
    rw [List.length_append, List.length_singleton] at hrest
    exact congrArg₂ List.cons (congrArg (Prod.mk q.session.id) hfirst) hrest

/-- While the results of releases are waited for the worker does them. -/
theorem Quiet.runs_releases (h : p.Quiet) (hr : r.Prompt) (hempty : p.registry = []) {t : Table Nat}
    (ht : ∀ e ∈ t, ∃ s, p.shared.sessions[e.2]? = some s ∧ s.id = e.1) :
    ∃ ys p', ∃ ds : List (Stint κ),
      p.Runs r (Caller.releaseEach t >>= Caller.awaitEach) (.of ys) (ds.map .worked) p' ∧ p'.Quiet ∧
        Released t p.worker.ended ys ds := by
  cases hended : p.worker.ended with
  | true =>
    have hruns := (runs_releaseEach_ended r hended t).bind (h.runs_awaitEach r _)
    rw [List.map_map] at hruns
    exact ⟨_, p, [], hruns, h, .refused⟩
  | false =>
    obtain ⟨posts, rfl, hposts⟩ := Caller.exists_places ht
    have hrelease := runs_releaseEach r posts hended fun q hq => (hposts q hq).1
    cases posts with
    | nil =>
      rw [posted_nil] at hrelease
      exact ⟨_, p, [], hrelease.bind (h.runs_awaitEach r []), h, .worked rfl⟩
    | cons q posts =>
      obtain ⟨ds, hquiet, hjobs, hheard, hdone, hdeals⟩ := h.settle_posted hr hended
        fun q hq => ⟨(List.getElem?_eq_some_iff.1 (hposts q hq).2).1, fun _ id => by rw [hempty]; exact nofun⟩
      have hawait := hquiet.runs_awaitEach r (Caller.tickets (q :: posts) p.worker.jobs.length)
      have hlength := congrArg List.length hdone
      rw [List.length_map, List.length_map] at hlength
      rw [gives_tickets hjobs hlength.symm] at hawait
      have hheard' : (p.posted (q :: posts)).overheard r = (ds.map Deal.worked).flatMap Deal.heard := by
        rw [hheard, List.flatMap_map]
        rfl
      have hall : (p.posted (q :: posts)).Runs r
          (Caller.awaitEach (Caller.tickets (q :: posts) p.worker.jobs.length)) _
          (ds.map Deal.worked ++ []) ((p.posted (q :: posts)).settle r) :=
        .of_settled rfl hquiet hdeals hheard' hawait
      have hruns := hrelease.bind hall
      rw [List.append_nil] at hruns
      refine ⟨_, _, ds, hruns, hquiet, .worked ?_⟩
      rw [hdone, Caller.places, List.map_map]
      exact List.map_congr_left fun q hq => by rw [(hposts q hq).1]; rfl

/-- All sessions are taken out of the registry, then released, and the log is cleared. -/
theorem Quiet.runs_closeAll (h : p.Quiet) (hr : r.Prompt) : ∃ ys p', ∃ ds : List (Stint κ),
    p.Runs r Caller.closeAll (.of ys) (.drained :: ds.map .worked ++ [.cleared]) p' ∧ p'.Quiet ∧
      Released p.registry p.worker.ended ys ds := by
  have hdoes := Front.Does.drained (r := r) (f := p.front)
  have hdrain := Runs.ask (r := r) (a := .drain) rfl rfl (.one hdoes) rfl
  have hquiet : Quiet { p with registry := [] } := h.of_worker rfl (hdoes.tidy h.tidy)
  obtain ⟨ys, p₂, ds, hreleases, hquiet₂, hreleased⟩ := hquiet.runs_releases hr rfl fun e he =>
    h.tidy.named e.1 e.2 (Table.Sorted.get?_of_mem h.tidy.sorted he)
  have hdoes' := Front.Does.cleared (r := r) (f := p₂.front)
  have hclear := Runs.ask (r := r) (a := .clearLog) rfl rfl (.one hdoes') rfl
  have hquiet' : Quiet { p₂ with shared := { p₂.shared with log := [] } } :=
    hquiet₂.of_worker rfl (hdoes'.tidy hquiet₂.tidy)
  have hrest : Runs r { p with registry := [] } (Caller.releaseEach p.registry >>= fun tickets =>
      Caller.awaitEach tickets >>= fun report => Caller.act .clearLog >>= fun _ => pure report) (.of ys)
      (ds.map Deal.worked ++ [.cleared]) { p₂ with shared := { p₂.shared with log := [] } } := by
    rw [← Program.bind_assoc]
    exact hreleases.bind (hclear.pure rfl)
  exact ⟨ys, _, ds, hdrain.bind hrest, hquiet', hreleased⟩

/-- The end of a worker is not waited for once it has come. -/
theorem Quiet.runs_gone (h : p.Quiet) (r : Remote ρ κ) (hended : p.worker.ended = true) (within : Nat) :
    p.Runs r (Caller.act (.gone within)) true [] p := by
  obtain ⟨hsettled, hsilent⟩ := h.settle r
  have hhost : host r false (.gone within) p = .went true p [] := by
    simp only [host, waits, if_true, hsettled, answer, hended]
  refine ⟨run_went hhost, ?_, .none⟩
  simp only [Caller.act, Program.ask, Pool.heard, waits, if_true, hsilent, hhost]
  rfl

/-- Word to stop ends the worker, if it has not ended yet. -/
theorem Quiet.runs_stop (h : p.Quiet) (r : Remote ρ κ) (within : Nat) (f : Bool → α) : ∃ p',
    p.Runs r (Caller.act .stop >>= fun joined =>
      match joined with
      | true => pure (f true)
      | false => Caller.act (.gone within) >>= fun ended => pure (f ended)) (f true) [.stopped] p' ∧
      p'.Quiet := by
  have hanswer : p.answer .stop = .went p.worker.joined { p with worker := p.worker.leave.2 } [] := rfl
  have hstopped := Front.Does.stopped (r := r) (f := p.front)
  rcases h.idle with hended | ⟨hrest, hjoined⟩
  · have hleave : p.worker.leave.2 = { p.worker with joined := true } := by
      rw [Worker.leave, Worker.sendStop, if_pos hended]
    have hquiet : Quiet { p with worker := { p.worker with joined := true } } := ⟨.inl hended, h.settled, h.tidy⟩
    have hfront : Front.Does r p.front .stopped { p.front with ended := p.worker.ended } := by
      rw [hended]
      exact hstopped
    rw [hleave] at hanswer
    have hstop := Runs.ask (r := r) rfl hanswer (.one hfront) rfl
    cases hjoined : p.worker.joined with
    | true =>
      rw [hjoined] at hstop
      exact ⟨_, hstop.pure rfl, hquiet⟩
    | false =>
      rw [hjoined] at hstop
      exact ⟨_, hstop.bind ((hquiet.runs_gone r hended within).pure rfl), hquiet⟩
  · have hfront : ({ p with worker := p.worker.leave.2 } : Pool ρ κ).front = p.front := by
      rw [front, front, Worker.leave, Worker.sendStop]
      split <;> rfl
    rw [hjoined] at hanswer
    have hstop : p.Runs r (Caller.act .stop) false [] _ := .ask rfl hanswer (hfront ▸ .none) rfl
    -- While its end is waited for the worker reads the word.
    have hsettle : ({ p with worker := p.worker.leave.2 } : Pool ρ κ).worker.settle (Shared.watch r)
        (p.shared, []) = _ := Worker.settle_leave hrest (p.shared, [])
    have hpool : ({ p with worker := p.worker.leave.2 } : Pool ρ κ).settle r =
        { p with worker := { p.worker.leave.2.finish with left := Worker.roundLength } } := by
      rw [Pool.settle_watch, hsettle]
    have hsilent : ({ p with worker := p.worker.leave.2 } : Pool ρ κ).overheard r = [] := by
      rw [overheard, hsettle]
    have hquiet : (({ p with worker := p.worker.leave.2 } : Pool ρ κ).settle r).Quiet := by
      rw [hpool]
      refine ⟨.inl rfl, fun t e hjob => ?_, hstopped.tidy h.tidy⟩
      obtain ⟨job, -, heq⟩ := List.mem_map.1 (List.mem_of_getElem? hjob)
      cases job <;> cases heq
    have hdeals : Front.Deals r ({ p with worker := p.worker.leave.2 } : Pool ρ κ).front [.stopped]
        (({ p with worker := p.worker.leave.2 } : Pool ρ κ).settle r).front := by
      rw [hpool, hfront]
      exact .one hstopped
    have hended : (({ p with worker := p.worker.leave.2 } : Pool ρ κ).settle r).worker.ended = true := by
      rw [hpool]
      rfl
    have hgone : ({ p with worker := p.worker.leave.2 } : Pool ρ κ).Runs r (Caller.act (.gone within)) true
        ([.stopped] ++ []) _ :=
      .of_settled rfl hquiet hdeals (by rw [hsilent]; rfl) (hquiet.runs_gone r hended within)
    exact ⟨_, hstop.bind (hgone.pure rfl), hquiet⟩

/-- What an order comes to. -/
theorem Quiet.runs_order (h : p.Quiet) (hr : r.Prompt) (o : Order) :
    ∃ y ds p', p.Runs r (o.program p.catalog) y ds p' ∧ p'.Quiet ∧ o.Makes r p.front y ds p'.front := by
  cases o with
  | obtain id =>
    rcases h.runs_obtain r id with ⟨hn, -, hruns⟩ | ⟨n, p₁, hruns, hquiet, -⟩
    · exact ⟨_, _, p, hruns.pure rfl, h, .unknown hn⟩
    · exact ⟨_, _, p₁, hruns.pure rfl, hquiet, .obtained⟩
  | invoke id name args =>
    obtain ⟨y, ds, p', hruns, hquiet, hinvokes⟩ := h.runs_invoke hr id name args
    exact ⟨_, _, p', hruns.pure rfl, hquiet, .invoked hinvokes⟩
  | load id state extra check =>
    obtain ⟨y, ds, p', hruns, hquiet, hloads⟩ := h.runs_loadWith hr id state extra check
    exact ⟨_, _, p', hruns.pure rfl, hquiet, .loaded hloads⟩
  | close id =>
    obtain ⟨y, ds, p', hruns, hquiet, hmakes⟩ := h.runs_close hr id
    exact ⟨_, _, p', hruns.pure rfl, hquiet, hmakes⟩
  | closeAll =>
    obtain ⟨ys, p', ds, hruns, hquiet, hreleased⟩ := h.runs_closeAll hr
    exact ⟨_, _, p', hruns.pure rfl, hquiet, .swept hreleased.sweeps⟩
  | saveAll =>
    obtain ⟨t, ds, p', hruns, hquiet, hsaves⟩ :=
      Quiet.runs_saveEach hr p.catalog (Table.keys p.registry) h rfl
    have hids : p.Runs r (Caller.act .ids) (Table.keys p.registry) [] p := .ask rfl rfl .none rfl
    exact ⟨_, _, p', (hids.bind hruns).pure rfl, hquiet, .saved hsaves⟩
  | shutdown within =>
    obtain ⟨ys, p₁, ds, hcloses, hquiet, hreleased⟩ := h.runs_closeAll hr
    obtain ⟨p', hstops, hquiet'⟩ := hquiet.runs_stop r within (ShutdownReport.mk (.of ys))
    exact ⟨_, _, p', (hcloses.bind hstops).pure rfl, hquiet', .ended hreleased.sweeps⟩

end Pool
end SessionPool
