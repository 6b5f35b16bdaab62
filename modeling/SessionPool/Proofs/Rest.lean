import SessionPool.Proofs.Settle
import SessionPool.Caller

/-! Rest: a pool between two requests. The worker has nothing to do, nobody is in line for a client, and
    the registry names sessions by their ids. Work that is sent then comes to what it comes to on its
    session alone; so a request changes the session it is about and no other, and the pool is at rest again
    when it returns. -/

namespace SessionPool
variable {ρ κ α : Type}

/-- What a job is that came to an end, without a result if it died. -/
def Job.ended {A : Type} {R : A → Type} : Option (Except PoolError α) → Job A R α
  | some x => .finished x
  | none => .dropped

/-- What the caller is told of work on a session, and the session then. -/
def Session.verdict (r : Remote ρ κ) (x : ρ) (s : Session κ) (v : Work) :
    Except PoolError Yield × Session κ :=
  ((s.outcome r x v).1.getD (.error .workerClosed), (s.outcome r x v).2)

/-- A release comes to what the client says when it is closed. -/
theorem Session.outcome_release (r : Remote ρ κ) (x : ρ) {s : Session κ} (hl : s.line = []) :
    (s.outcome r x .release).1 = some (match s.client with
      | none => .ok .released
      | some client => ((r.close client x).1.mapError fun e => .closeFailed s.id e.message).map
          fun _ => .released) := by
  obtain ⟨id, locator, ready, closed, client, line⟩ := s
  cases hl
  cases client <;> rfl

/-- A release that fails says of which session. -/
theorem Session.release_fails {r : Remote ρ κ} {x : ρ} {s : Session κ} {e : PoolError} (hl : s.line = [])
    (h : (s.verdict r x .release).1 = .error e) : ∃ reason, e = .closeFailed s.id reason := by
  rw [verdict, outcome_release r x hl, Option.getD_some] at h
  split at h
  · cases h
  · rename_i client _
    cases hclose : (r.close client x).1 with
    | ok _ =>
      rw [hclose] at h
      cases h
    | error cause =>
      rw [hclose] at h
      cases h
      exact ⟨cause.message, rfl⟩

/-- Work that is sent to the session at a place. -/
structure Post (κ : Type) where
  place : Nat
  session : Session κ
  work : Work

namespace Post

/-- The job it becomes. -/
def job (q : Post κ) : Job (Deed κ) Deed.Reply Yield := .pending (Errand.ofWork q.place q.work)

/-- What it comes to. -/
def outcome (r : Remote ρ κ) (x : ρ) (q : Post κ) : Option (Except PoolError Yield) × Session κ :=
  q.session.outcome r x q.work

/-- The sessions afterwards. -/
def leave (r : Remote ρ κ) (x : ρ) (sessions : List (Session κ)) (q : Post κ) : List (Session κ) :=
  sessions.set q.place (q.outcome r x).2

end Post

namespace Shared

/-- Nobody is in line, and all jobs that are pending are about to begin. -/
structure Ready (jobs : List (Job (Deed κ) Deed.Reply Yield)) (w : Shared ρ κ) : Prop where
  fresh : ∀ (t : Nat) (e : Errand κ (Except PoolError Yield)), jobs[t]? = some (.pending e) →
    ∃ n v s, e = Errand.ofWork n v ∧ w.sessions[n]? = some s
  free : ∀ s ∈ w.sessions, s.line = []

variable {r : Remote ρ κ} {w w' : Shared ρ κ} {jobs : List (Job (Deed κ) Deed.Reply Yield)}
  {n t : Nat} {s : Session κ} {v : Work}

theorem free_set {sessions : List (Session κ)} (hfree : ∀ s ∈ sessions, s.line = []) (hs : s.line = []) :
    ∀ s' ∈ sessions.set n s, s'.line = [] := by
  intro s' hmem
  rcases List.mem_or_eq_of_mem_set hmem with hmem | rfl
  · exact hfree s' hmem
  · exact hs

/-- A fresh job comes to its end when it gets a turn. -/
theorem Ready.ends (hr : r.Independent) (x : ρ) (h : Ready jobs w) (hs : w.sessions[n]? = some s) :
    Ends w n ((Errand.ofWork n v).advance (host r t) w) (s.outcome r x v).1 (s.outcome r x v).2 ∧
      Ready (jobs.set t (.ended (s.outcome r x v).1)) ((Errand.ofWork n v).advance (host r t) w).state := by
  obtain ⟨hends, hline, -⟩ := ends_outcome (t := t) hr x v hs (h.free s (List.mem_of_getElem? hs))
  refine ⟨hends, ?_, by rw [hends.sessions]; exact free_set h.free hline⟩
  intro t' e hpending
  rw [List.getElem?_set] at hpending
  split at hpending
  · split at hpending
    · cases hresult : (s.outcome r x v).1 <;> rw [hresult] at hpending <;> cases hpending
    · cases hpending
  · obtain ⟨n', v', s', he, hs'⟩ := h.fresh t' e hpending
    rw [hends.sessions]
    by_cases hn : n = n'
    · subst hn
      exact ⟨n, v', _, he, List.getElem?_set_self (List.getElem?_eq_some_iff.1 hs).1⟩
    · exact ⟨n', v', s', he, by rw [List.getElem?_set_ne hn]; exact hs'⟩

theorem Ends.of_progress {a : Program.Advance (Shared ρ κ) (Deed κ) Deed.Reply (Except PoolError Yield)}
    {result : Option (Except PoolError Yield)} (h : Ends w n a result s) :
    Job.of a.progress = .ended result := by
  rw [h.progress]
  cases result <;> rfl

/-- So do all jobs, one after the other. -/
theorem smooth (hr : r.Independent) : Worker.Smooth (host r) (Ready (ρ := ρ) (κ := κ)) := by
  intro jobs w t e hready hjob
  obtain ⟨n, v, s, rfl, hs⟩ := hready.fresh t e hjob
  obtain ⟨hends, hready'⟩ := hready.ends (t := t) hr w.remote (v := v) hs
  refine ⟨hends.woken, ?_, ?_⟩
  · rw [hends.progress]
    cases (s.outcome r w.remote v).1 with
    | none => exact .inr rfl
    | some result => exact .inl ⟨result, rfl⟩
  · rw [hends.of_progress]
    exact hready'

/-- Posts to several sessions come each to what it does on its own. -/
theorem drain_posts (hr : r.Independent) (x : ρ) : ∀ (posts : List (Post κ))
    (jobs : List (Job (Deed κ) Deed.Reply Yield)) (w : Shared ρ κ), (posts.map Post.place).Nodup →
    (∀ q ∈ posts, w.sessions[q.place]? = some q.session) → (∀ s ∈ w.sessions, s.line = []) →
    ∃ w', Worker.drain (host r) (List.range' jobs.length posts.length) (jobs ++ posts.map Post.job, w) =
        (jobs ++ posts.map fun q => .ended (q.outcome r x).1, w') ∧
      w'.sessions = posts.foldl (Post.leave r x) w.sessions ∧ (∀ s ∈ w'.sessions, s.line = []) ∧
      w'.sessions.map Session.id = w.sessions.map Session.id
  | [], jobs, w, _, _, hfree => ⟨w, rfl, rfl, hfree, rfl⟩
  | q :: posts, jobs, w, hnodup, hplace, hfree => by
    obtain ⟨hnew, hnodup⟩ := List.nodup_cons.1 hnodup
    have hs := hplace q List.mem_cons_self
    have hjob : (jobs ++ (q :: posts).map Post.job)[jobs.length]? =
        some (.pending (Errand.ofWork q.place q.work)) := by
      rw [List.getElem?_append_right (Nat.le_refl _), Nat.sub_self]
      rfl
    obtain ⟨hends, hline, hid⟩ := ends_outcome (t := jobs.length) hr x q.work hs
      (hfree q.session (List.mem_of_getElem? hs))
    have hset : (jobs ++ (q :: posts).map Post.job).set jobs.length (.ended (q.outcome r x).1) =
        jobs ++ [.ended (q.outcome r x).1] ++ posts.map Post.job := by
      rw [List.set_append_right _ _ (Nat.le_refl _), Nat.sub_self, List.append_assoc]
      rfl
    obtain ⟨w', hdrain, hsessions, hfree', hids⟩ := drain_posts hr x posts
      (jobs ++ [.ended (q.outcome r x).1])
      ((Errand.ofWork q.place q.work).advance (host r jobs.length) w).state hnodup
      (fun q' hq' => by
        have hne : q.place ≠ q'.place := fun h => hnew (h ▸ List.mem_map_of_mem hq')
        rw [hends.sessions, List.getElem?_set_ne hne]
        exact hplace q' (List.mem_cons_of_mem _ hq'))
      (by rw [hends.sessions]; exact free_set hfree hline)
    refine ⟨w', ?_, ?_, hfree', ?_⟩
    · rw [List.length_append] at hdrain
      rw [List.length_cons, List.range'_succ, Worker.drain, hjob]
      simp only []
      rw [hends.of_progress]
      refine (congrArg (fun l => Worker.drain (host r) _ (l, _)) hset).trans (hdrain.trans ?_)
      rw [List.append_assoc]
      rfl
    · rw [hsessions, hends.sessions]
      rfl
    · rw [hids, hends.sessions, List.map_set, hid]
      refine set_self ?_
      rw [List.getElem?_map, hs]
      rfl

end Shared

namespace Pool

/-- Between two requests: the worker has nothing to do, all jobs came to an end, and the registry names
    sessions by their ids. -/
structure Rest (p : Pool ρ κ) : Prop where
  resting : p.worker.Resting
  settled : ∀ (t : Nat) (e : Errand κ (Except PoolError Yield)), p.worker.jobs[t]? ≠ some (.pending e)
  free : ∀ s ∈ p.shared.sessions, s.line = []
  sorted : Table.Sorted p.registry
  named : ∀ id n, Table.get? id p.registry = some n → (p.shared.sessions.map Session.id)[n]? = some id

variable {r : Remote ρ κ} {p p' : Pool ρ κ} {n : Nat} {s : Session κ}

theorem Rest.settle (h : p.Rest) (r : Remote ρ κ) : p.settle r = p := by
  rw [Pool.settle, h.resting.settle]

/-- Work was sent that the worker has not read yet. -/
def posted (p : Pool ρ κ) (posts : List (Post κ)) : Pool ρ κ :=
  { p with worker := { p.worker with
    jobs := p.worker.jobs ++ posts.map Post.job
    inbox := p.worker.inbox ++ (List.range' p.worker.jobs.length posts.length).map .run } }

theorem posted_nil (p : Pool ρ κ) : p.posted [] = p := by
  simp [posted]

theorem posted_append (p : Pool ρ κ) (posts later : List (Post κ)) :
    (p.posted posts).posted later = p.posted (posts ++ later) := by
  simp only [posted, List.length_append, List.length_map, List.map_append, List.append_assoc,
    ← List.range'_append_1]

theorem answer_submit (h : p.worker.ended = false) (q : Post κ) :
    p.answer (.submit q.place q.work) = .went (.ok p.worker.jobs.length) (p.posted [q]) [] := by
  simp only [answer, Worker.submit]
  rw [if_neg (by rw [h]; exact Bool.false_ne_true)]
  rfl

theorem posted_ready (h : p.Rest) {posts : List (Post κ)}
    (hplace : ∀ q ∈ posts, p.shared.sessions[q.place]? = some q.session) :
    Shared.Ready (p.posted posts).worker.jobs p.shared := by
  refine ⟨fun t e hjob => ?_, h.free⟩
  rcases Nat.lt_or_ge t p.worker.jobs.length with ht | ht
  · exact absurd ((List.getElem?_append_left ht).symm.trans hjob) (h.settled t e)
  · have hpost := (List.getElem?_append_right ht).symm.trans hjob
    obtain ⟨q, hq, heq⟩ := List.mem_map.1 (List.mem_of_getElem? hpost)
    cases heq
    exact ⟨q.place, q.work, q.session, rfl, hplace q hq⟩

/-- The worker does what was sent, and the pool is at rest again. -/
theorem settle_posted (hr : r.Independent) (x : ρ) (h : p.Rest) {posts : List (Post κ)}
    (hnodup : (posts.map Post.place).Nodup)
    (hplace : ∀ q ∈ posts, p.shared.sessions[q.place]? = some q.session) :
    ((p.posted posts).settle r).Rest ∧ ((p.posted posts).settle r).catalog = p.catalog ∧
      ((p.posted posts).settle r).registry = p.registry ∧
      ((p.posted posts).settle r).worker.jobs =
        p.worker.jobs ++ posts.map (fun q => .ended (q.outcome r x).1) ∧
      ((p.posted posts).settle r).shared.sessions = posts.foldl (Post.leave r x) p.shared.sessions := by
  have hcalm : (p.posted posts).worker.Calm (List.range' p.worker.jobs.length posts.length) :=
    ⟨h.resting.ended, h.resting.holder, h.resting.roused, by
      rw [posted, h.resting.inbox]
      rfl⟩
  obtain ⟨worker, hsettle, hjobs, hrest⟩ :=
    Worker.settle_drains (Shared.smooth hr) hcalm (posted_ready h hplace)
  obtain ⟨w, hdrain, hsessions, hfree, hids⟩ :=
    Shared.drain_posts hr x posts p.worker.jobs p.shared hnodup hplace h.free
  have hturns : (p.posted posts).worker.turns = [] := h.resting.turns
  have hboth : Worker.drain (Shared.host r)
      ((p.posted posts).worker.turns ++ List.range' p.worker.jobs.length posts.length)
      ((p.posted posts).worker.jobs, p.shared) =
        (p.worker.jobs ++ posts.map (fun q => .ended (q.outcome r x).1), w) := by
    rw [hturns, List.nil_append]
    exact hdrain
  rw [hboth] at hsettle hjobs
  have hpool : (p.posted posts).settle r = { p with worker := worker, shared := w } := by
    rw [settle, show (p.posted posts).shared = p.shared from rfl, hsettle]
    rfl
  rw [hpool]
  refine ⟨⟨hrest, fun t e hjob => ?_, hfree, h.sorted, fun id n hn => ?_⟩, rfl, rfl, hjobs, hsessions⟩
  · rw [show ({ p with worker := worker, shared := w } : Pool ρ κ).worker.jobs = _ from hjobs] at hjob
    rcases Nat.lt_or_ge t p.worker.jobs.length with ht | ht
    · exact h.settled t e ((List.getElem?_append_left ht).symm.trans hjob)
    · have hended := (List.getElem?_append_right ht).symm.trans hjob
      obtain ⟨q, -, heq⟩ := List.mem_map.1 (List.mem_of_getElem? hended)
      cases hresult : (q.outcome r x).1 <;> rw [hresult] at heq <;> cases heq
  · rw [hids]
    exact h.named id n hn

variable {β : Type} {a : Ask} {next : a.Reply → Caller α} {reply : a.Reply} {c : Caller α} {y : α}

theorem run_went (h : host r false a p = .went reply p' []) :
    p.run r (Program.act a next) = p'.run r (next reply) := by
  rw [run, Program.advance, h]
  rfl

/-- An action that needs no waiting. -/
theorem run_answer (hw : waits a = false) (h : p.answer a = .went reply p' []) :
    p.run r (Program.act a next) = p'.run r (next reply) := by
  refine run_went ?_
  rw [host, if_neg (by rw [hw]; exact Bool.false_ne_true)]
  exact h

theorem run_await {t : Nat} {next : (Ask.await t).Reply → Caller α} {result : Except PoolError Yield}
    (h : (p.settle r).worker.result? t = some result) :
    p.run r (Program.act (.await t) next) = (p.settle r).run r (next result) := by
  have hanswer : (p.settle r).answer (.await t) = .went result (p.settle r) [] := by
    simp only [answer, h]
  refine run_went ?_
  simp only [host, waits, if_true, hanswer]

theorem run_bind {f : α → Caller β} (h : p.run r c = (.finished y, p')) :
    p.run r (c >>= f) = p'.run r (f y) := by
  induction c generalizing p with
  | done z =>
    cases h
    rfl
  | act a next ih =>
    rw [Program.act_bind]
    cases hgo : host r false a p with
    | went reply q woken =>
      have hnext : p.run r (Program.act a next) = q.run r (next reply) := by
        rw [run, Program.advance, hgo]
        rfl
      have hbind : p.run r (Program.act a fun reply => next reply >>= f) = q.run r (next reply >>= f) := by
        rw [run, Program.advance, hgo]
        rfl
      rw [hbind]
      exact ih reply (hnext.symm.trans h)
    | waits q =>
      rw [run, Program.advance, hgo] at h
      cases h
    | occupies q =>
      rw [run, Program.advance, hgo] at h
      cases h
    | died q woken =>
      rw [run, Program.advance, hgo] at h
      cases h

/-- What a caller is told of a job that came to an end. -/
theorem result_ended {jobs : List (Job (Deed κ) Deed.Reply Yield)} {result : Option (Except PoolError Yield)}
    {t : Nat} {w : Worker (Deed κ) Deed.Reply Yield} (hjobs : w.jobs = jobs)
    (h : jobs[t]? = some (.ended result)) : w.result? t = some (result.getD (.error .workerClosed)) := by
  rw [Worker.result?, hjobs, h]
  cases result <;> rfl

/-- Work that is sent while the pool is at rest gives what it comes to on its session. -/
theorem run_send (hr : r.Independent) (x : ρ) (h : p.Rest) (hs : p.shared.sessions[n]? = some s) (v : Work) :
    ∃ p', p.run r (Caller.send n v) = (.finished (s.verdict r x v).1, p') ∧ p'.Rest ∧
      p'.catalog = p.catalog ∧ p'.registry = p.registry ∧
      p'.shared.sessions = p.shared.sessions.set n (s.verdict r x v).2 := by
  have hplace : ∀ q ∈ [Post.mk n s v], p.shared.sessions[q.place]? = some q.session := by
    intro q hq
    cases List.mem_singleton.1 hq
    exact hs
  have hnodup : ([Post.mk n s v].map Post.place).Nodup := List.pairwise_singleton _ n
  obtain ⟨hrest, hcatalog, hregistry, hjobs, hsessions⟩ := settle_posted hr x h hnodup hplace
  refine ⟨(p.posted [⟨n, s, v⟩]).settle r, ?_, hrest, hcatalog, hregistry, hsessions⟩
  have hresult : ((p.posted [⟨n, s, v⟩]).settle r).worker.result? p.worker.jobs.length =
      some (s.verdict r x v).1 := by
    refine result_ended hjobs ?_
    rw [List.getElem?_append_right (Nat.le_refl _), Nat.sub_self]
    rfl
  exact (run_answer rfl (answer_submit h.resting.ended ⟨n, s, v⟩)).trans (run_await hresult)

/-- A request on the session with an id: what the live session is afterwards, with nobody else touched. -/
structure Serves (p p' : Pool ρ κ) (id : String) (v : Option (Session κ)) : Prop where
  rest : p'.Rest
  catalog : p'.catalog = p.catalog
  here : p'.session? id = v
  others : ∀ j, j ≠ id → p'.session? j = p.session? j

variable {id : String}

theorem Rest.serves (h : p.Rest) (id : String) : p.Serves p id (p.session? id) :=
  ⟨h, rfl, rfl, fun _ _ => rfl⟩

theorem Serves.trans {p'' : Pool ρ κ} {v v' : Option (Session κ)} (h : p.Serves p' id v)
    (h' : p'.Serves p'' id v') : p.Serves p'' id v' :=
  ⟨h'.rest, h'.catalog.trans h.catalog, h'.here, fun j hj => (h'.others j hj).trans (h.others j hj)⟩

/-- The registry names a session that is there. -/
theorem Rest.session_of_get? (h : p.Rest) (hn : Table.get? id p.registry = some n) :
    ∃ s, p.shared.sessions[n]? = some s ∧ s.id = id ∧ p.session? id = some s := by
  have hid := h.named id n hn
  rw [List.getElem?_map] at hid
  obtain ⟨s, hs, hid⟩ := Option.map_eq_some_iff.1 hid
  exact ⟨s, hs, hid, by rw [session?, hn, Option.bind_some, hs]⟩

theorem Rest.ne_of_get? (h : p.Rest) {j : String} (hj : j ≠ id) (hn : Table.get? id p.registry = some n) :
    Table.get? j p.registry ≠ some n := by
  intro hj'
  have hid := h.named j n hj'
  rw [h.named id n hn] at hid
  exact hj (Option.some.inj hid).symm

/-- A change at a place that the registry does not name for an id. -/
theorem session?_set {s' : Session κ} (hregistry : p'.registry = p.registry)
    (hsessions : p'.shared.sessions = p.shared.sessions.set n s') (hne : Table.get? id p.registry ≠ some n) :
    p'.session? id = p.session? id := by
  rw [session?, session?, hregistry, hsessions]
  cases hm : Table.get? id p.registry with
  | none => rfl
  | some m =>
    have hnm : n ≠ m := fun heq => hne (heq ▸ hm)
    rw [Option.bind_some, Option.bind_some, List.getElem?_set_ne hnm]

/-- A live session changes, and the registry does not. -/
theorem Rest.serves_set (h : p.Rest) {s' : Session κ} (hn : Table.get? id p.registry = some n)
    (hrest : p'.Rest) (hcatalog : p'.catalog = p.catalog) (hregistry : p'.registry = p.registry)
    (hsessions : p'.shared.sessions = p.shared.sessions.set n s') : p.Serves p' id (some s') := by
  obtain ⟨s, hs, -, -⟩ := h.session_of_get? hn
  refine ⟨hrest, hcatalog, ?_, fun j hj => session?_set hregistry hsessions (h.ne_of_get? hj hn)⟩
  rw [session?, hregistry, hn, Option.bind_some, hsessions,
    List.getElem?_set_self (List.getElem?_eq_some_iff.1 hs).1]

/-- A session is taken out of the registry. -/
theorem Rest.removed (h : p.Rest) (id : String) :
    p.Serves { p with registry := p.registry.erase id } id none := by
  refine ⟨⟨h.resting, h.settled, h.free, h.sorted.erase id, fun j n hn => ?_⟩, rfl, ?_, fun j hj => ?_⟩
  · by_cases hj : j = id
    · rw [hj, Table.get?_erase_self h.sorted] at hn
      cases hn
    · rw [Table.get?_erase_of_ne hj] at hn
      exact h.named j n hn
  · rw [session?, Table.get?_erase_self h.sorted, Option.bind_none]
  · rw [session?, session?, Table.get?_erase_of_ne hj]

/-- Work on a live session. -/
theorem run_send_live (hr : r.Independent) (x : ρ) (h : p.Rest) (hn : Table.get? id p.registry = some n)
    (hs : p.shared.sessions[n]? = some s) (v : Work) :
    ∃ p', p.run r (Caller.send n v) = (.finished (s.verdict r x v).1, p') ∧
      p.Serves p' id (some (s.verdict r x v).2) := by
  obtain ⟨p', hrun, hrest, hcatalog, hregistry, hsessions⟩ := run_send hr x h hs v
  exact ⟨p', hrun, h.serves_set hn hrest hcatalog hregistry hsessions⟩

/-- A session that is marked ready. -/
theorem markReady_serves (h : p.Rest) (hn : Table.get? id p.registry = some n)
    (hs : p.shared.sessions[n]? = some s) : p.Serves (p.markReady id) id (some { s with ready := true }) ∧
      Table.get? id (p.markReady id).registry = some n ∧
      (p.markReady id).shared.sessions[n]? = some { s with ready := true } := by
  have hpool : p.markReady id = { p with shared := p.shared.put n { s with ready := true } } := by
    rw [markReady, hn]
    simp only [hs]
  have hline : s.line = [] := h.free s (List.mem_of_getElem? hs)
  rw [hpool]
  refine ⟨h.serves_set hn
    ⟨h.resting, h.settled, Shared.free_set h.free hline, h.sorted, fun j m hm => ?_⟩ rfl rfl rfl,
    hn, List.getElem?_set_self (List.getElem?_eq_some_iff.1 hs).1⟩
  rw [Shared.put, List.map_set, set_self]
  · exact h.named j m hm
  · rw [List.getElem?_map, hs]
    rfl

end Pool

/-- The session that a caller gets under an id: the live one, or a new one if the group is known. -/
def Catalog.enter (c : Catalog) (id : String) : Option (Session κ) → Except PoolError (Session κ)
  | some s => .ok s
  | none =>
    match c.locator? (SessionKey.parse id).group with
    | none => .error (.unknownGroup (SessionKey.parse id).group)
    | some l => .ok { id := id, locator := l }

namespace Pool
variable {r : Remote ρ κ} {p p' : Pool ρ κ} {n : Nat} {s : Session κ} {id : String}

theorem obtain_error {e : PoolError} (h : p.Rest) (he : p.catalog.enter id (p.session? id) = .error e) :
    p.obtain id = (.error e, p) := by
  cases hn : Table.get? id p.registry with
  | some n =>
    obtain ⟨s, -, -, hs⟩ := h.session_of_get? hn
    rw [hs] at he
    cases he
  | none =>
    have hnone : p.session? id = none := by rw [session?, hn, Option.bind_none]
    rw [hnone, Catalog.enter] at he
    rw [obtain, hn]
    split at he
    · rename_i hl
      cases he
      simp only [hl]
    · cases he

theorem obtain_ok (h : p.Rest) (hs : p.catalog.enter id (p.session? id) = .ok s) :
    ∃ n p', p.obtain id = (.ok (n, s.ready), p') ∧ p.Serves p' id (some s) ∧
      Table.get? id p'.registry = some n ∧ p'.shared.sessions[n]? = some s := by
  cases hn : Table.get? id p.registry with
  | some n =>
    obtain ⟨s', hs', -, hlive⟩ := h.session_of_get? hn
    rw [hlive] at hs
    cases hs
    refine ⟨n, p, ?_, hlive ▸ h.serves id, hn, hs'⟩
    simp only [obtain, hn, isReady, hs']
    rfl
  | none =>
    have hnone : p.session? id = none := by rw [session?, hn, Option.bind_none]
    rw [hnone, Catalog.enter] at hs
    split at hs
    · cases hs
    rename_i l hl
    cases hs
    have hlast : (p.shared.sessions ++
        [({ id := id, locator := l } : Session κ)])[p.shared.sessions.length]? =
          some { id := id, locator := l } := List.getElem?_concat_length
    have hold : ∀ j m, j ≠ id → Table.get? j (p.registry.insert id p.shared.sessions.length) = some m →
        Table.get? j p.registry = some m ∧ m < p.shared.sessions.length := by
      intro j m hj hm
      rw [Table.get?_insert_of_ne hj] at hm
      obtain ⟨s, hs, -⟩ := h.session_of_get? hm
      exact ⟨hm, (List.getElem?_eq_some_iff.1 hs).1⟩
    refine ⟨p.shared.sessions.length, { p with
      registry := p.registry.insert id p.shared.sessions.length
      shared := { p.shared with sessions := p.shared.sessions ++ [{ id := id, locator := l }] } },
      ?_, ⟨⟨h.resting, h.settled, ?_, h.sorted.insert .., ?_⟩, rfl, ?_, ?_⟩,
      Table.get?_insert_self .., hlast⟩
    · rw [obtain, hn]
      simp only [hl]
    · intro s hs
      rcases List.mem_append.1 hs with hs | hs
      · exact h.free s hs
      · cases List.mem_singleton.1 hs
        rfl
    · intro j m hm
      by_cases hj : j = id
      · subst hj
        rw [Table.get?_insert_self] at hm
        cases hm
        rw [List.getElem?_map, hlast]
        rfl
      · obtain ⟨hm, hlt⟩ := hold j m hj hm
        rw [List.map_append, List.getElem?_append_left (by rw [List.length_map]; exact hlt)]
        exact h.named j m hm
    · rw [session?, Table.get?_insert_self, Option.bind_some, hlast]
    · intro j hj
      rw [session?, session?, Table.get?_insert_of_ne hj]
      cases hm : Table.get? j p.registry with
      | none => rfl
      | some m =>
        obtain ⟨-, hlt⟩ := hold j m hj (by rw [Table.get?_insert_of_ne hj, hm])
        rw [Option.bind_some, Option.bind_some, List.getElem?_append_left hlt]

end Pool
end SessionPool
