import SessionPool.Proofs.Visit

/-! Sweeps: what a caller does for all live sessions. It comes to the same for each as if the others were
    not there: the states are asked for by visits, one after the other, and the releases, though they are
    all sent before the first is waited for, are on different sessions. So what a sweep says of one session
    is the visit of a sweep to it. -/

namespace SessionPool

variable {ρ κ : Type}

namespace Visit
variable (r : Remote ρ κ) (x : ρ) (c : Catalog) (id : String)

/-- A session that does not tell its state has none. -/
def save : Visit κ Json := fun v =>
  (match (invoke r x c id saveScenario (.structured []) v).1 with
    | .ok n => n.value
    | .error _ => .null,
  (invoke r x c id saveScenario (.structured []) v).2)

/-- A live session is asked for its state. -/
def saved : Visit κ (Table Json)
  | none => ([], none)
  | some s => ([(id, (save r x c id (some s)).1)], (save r x c id (some s)).2)

end Visit

/-- The registry names the live sessions. -/
theorem Pool.Rest.mem_keys_iff {p : Pool ρ κ} {id : String} (h : p.Rest) :
    id ∈ Table.keys p.registry ↔ (p.session? id).isSome := by
  rw [Table.mem_keys_iff h.sorted]
  cases hn : Table.get? id p.registry with
  | none =>
    rw [Pool.session?, hn, Option.bind_none]
    exact Iff.rfl
  | some n =>
    obtain ⟨s, -, -, hlive⟩ := h.session_of_get? hn
    rw [hlive]
    exact iff_of_true rfl rfl

namespace Caller
variable {r : Remote ρ κ} {c : Catalog}

/-- The states are what visits give, since no visit touches another session. -/
theorem run_saveEach (hr : r.Independent) (x : ρ) : ∀ (ids : List String) {p : Pool ρ κ}, ids.Nodup →
    p.Rest → p.catalog = c →
    ∃ p', p.run r (saveEach c ids) =
        (.finished (ids.map fun id => (id, (Visit.save r x c id (p.session? id)).1)), p') ∧
      p'.Rest ∧ p'.catalog = c ∧
      ∀ id, p'.session? id = if id ∈ ids then (Visit.save r x c id (p.session? id)).2 else p.session? id
  | [], p, _, h, hc => ⟨p, rfl, h, hc, fun id => (if_neg List.not_mem_nil).symm⟩
  | id :: ids, p, hnodup, h, hc => by
    obtain ⟨hnew, hnodup⟩ := List.nodup_cons.1 hnodup
    have hvisits : Visits r c id (invoke c id saveScenario (.structured [])) _ :=
      invoke_visits hr x saveScenario (.structured [])
    obtain ⟨p₁, hrun, hserves⟩ := hvisits p h hc
    obtain ⟨p₂, hrun', h', hc', hsession⟩ :=
      run_saveEach hr x ids hnodup hserves.rest (hserves.catalog.trans hc)
    have hrest : (ids.map fun id => (id, (Visit.save r x c id (p₁.session? id)).1)) =
        ids.map fun id => (id, (Visit.save r x c id (p.session? id)).1) := by
      refine List.map_congr_left fun j hj => ?_
      rw [hserves.others j fun heq => hnew (heq ▸ hj)]
    refine ⟨p₂, ?_, h', hc', fun j => ?_⟩
    · rw [hrest] at hrun'
      refine (Pool.run_bind hrun).trans ((Pool.run_bind hrun').trans ?_)
      rw [List.map_cons, Visit.save]
      cases (Visit.invoke r x c id saveScenario (.structured []) (p.session? id)).1 <;> rfl
    · rw [hsession]
      by_cases hj : j = id
      · subst hj
        rw [if_neg hnew, if_pos List.mem_cons_self]
        exact hserves.here
      · rw [hserves.others j hj]
        simp only [List.mem_cons, hj, false_or]

/-- What is told of each session's state, and what becomes of it. -/
theorem run_saveAll (hr : r.Independent) (x : ρ) {p : Pool ρ κ} (h : p.Rest) (hc : p.catalog = c) :
    ∃ states p', p.run r (saveAll c) = (.finished states, p') ∧ p'.Rest ∧ p'.catalog = c ∧
      ∀ id, states.filter (fun e => e.1 = id) = (Visit.saved r x c id (p.session? id)).1 ∧
        p'.session? id = (Visit.saved r x c id (p.session? id)).2 := by
  have hnodup := Table.Sorted.keys_nodup h.sorted
  obtain ⟨p', hrun, h', hc', hsession⟩ := run_saveEach hr x _ hnodup h hc
  have hanswer : p.answer .ids = .went (Table.keys p.registry) p [] := rfl
  refine ⟨_, p', (Pool.run_answer rfl hanswer).trans hrun, h', hc', fun id => ?_⟩
  rw [Table.filter_keys _ id hnodup, hsession]
  cases hlive : p.session? id with
  | none =>
    have hnot : id ∉ Table.keys p.registry := fun hmem => by
      rw [h.mem_keys_iff, hlive] at hmem
      cases hmem
    rw [if_neg hnot, if_neg hnot]
    exact ⟨rfl, rfl⟩
  | some s =>
    have hmem : id ∈ Table.keys p.registry := h.mem_keys_iff.2 (by rw [hlive]; rfl)
    rw [if_pos hmem, if_pos hmem]
    exact ⟨rfl, rfl⟩

end Caller

/-- Adds what came of closing a session. -/
def CloseReport.add (id : String) (report : CloseReport) : Except PoolError Yield → CloseReport
  | .ok _ => { report with closed := id :: report.closed }
  | .error e => { report with failures := e.toClose id :: report.failures }

/-- The report of what came of closing sessions. -/
def CloseReport.of : Table (Except PoolError Yield) → CloseReport
  | [] => {}
  | (id, result) :: rest => (of rest).add id result

/-- Whether a failure may be about a session; one that does not say of which is about all. -/
def PoolError.isAbout (id : String) : PoolError → Bool
  | .closeFailed session _ => session = id
  | _ => true

/-- The part of a report that is about a session. -/
def CloseReport.about (id : String) (r : CloseReport) : CloseReport :=
  ⟨r.closed.filter fun j => j = id, r.failures.filter (PoolError.isAbout id)⟩

/-- The failures of a report say of which sessions they are. -/
def Attributed (t : Table (Except PoolError Yield)) : Prop :=
  ∀ id e, (id, .error e) ∈ t → ∃ reason, e = .closeFailed id reason

theorem CloseReport.about_of (id : String) : ∀ {t : Table (Except PoolError Yield)}, Attributed t →
    (CloseReport.of t).about id = .of (t.filter fun e => e.1 = id)
  | [], _ => rfl
  | (j, result) :: t, h => by
    have ih := about_of id (t := t) fun i e hmem => h i e (List.mem_cons_of_mem _ hmem)
    rw [of, List.filter_cons]
    by_cases hj : j = id
    · subst hj
      rw [if_pos (decide_eq_true rfl), of, ← ih]
      cases result with
      | ok y => simp [add, about]
      | error e =>
        obtain ⟨reason, rfl⟩ := h j e List.mem_cons_self
        simp [add, about, PoolError.toClose, PoolError.isAbout]
    · rw [if_neg (by simpa using hj), ← ih]
      cases result with
      | ok y => simp [add, about, hj]
      | error e =>
        obtain ⟨reason, rfl⟩ := h j e List.mem_cons_self
        simp [add, about, PoolError.toClose, PoolError.isAbout, hj]

/-- What a sweep says of one session when it closes all. -/
def Visit.closed (r : Remote ρ κ) (x : ρ) (id : String) : Visit κ CloseReport
  | none => ({}, none)
  | some s => (.of [(id, (s.verdict r x .release).1)], none)

namespace Caller
variable {r : Remote ρ κ} {p : Pool ρ κ}

/-- The tickets of posts, counted from the first. -/
def tickets (posts : List (Post κ)) (first : Nat) : Table (Except PoolError Nat) :=
  (posts.zipIdx first).map fun e => (e.1.session.id, .ok e.2)

/-- Posts of releases, as the registry names their sessions. -/
def places (posts : List (Post κ)) : Table Nat := posts.map fun q => (q.session.id, q.place)

theorem run_releaseEach : ∀ (posts : List (Post κ)) {p : Pool ρ κ}, p.worker.ended = false →
    (∀ q ∈ posts, q.work = .release) →
    p.run r (releaseEach (places posts)) = (.finished (tickets posts p.worker.jobs.length), p.posted posts)
  | [], p, _, _ => by rw [Pool.posted_nil]; rfl
  | q :: posts, p, hended, hwork => by
    have hanswer := Pool.answer_submit hended q
    rw [hwork q List.mem_cons_self] at hanswer
    have hrest := run_releaseEach posts (p := p.posted [q]) hended
      fun q' hq' => hwork q' (List.mem_cons_of_mem _ hq')
    rw [Pool.posted_append] at hrest
    have hlength : (p.posted [q]).worker.jobs.length = p.worker.jobs.length + 1 := List.length_append ..
    rw [hlength] at hrest
    exact (Pool.run_answer rfl hanswer).trans (Pool.run_bind hrest)

/-- Results that are all there are read one after the other. -/
theorem run_awaitEach (x : ρ) (hsettled : p.settle r = p) : ∀ (posts : List (Post κ)) (first : Nat),
    (∀ i q, posts[i]? = some q →
      p.worker.result? (first + i) = some (q.session.verdict r x q.work).1) →
    p.run r (awaitEach (tickets posts first)) =
      (.finished (.of (posts.map fun q => (q.session.id, (q.session.verdict r x q.work).1))), p)
  | [], _, _ => rfl
  | q :: posts, first, hresults => by
    have hhead := hresults 0 q rfl
    have hrest := run_awaitEach x hsettled posts (first + 1) fun i q' hq' => by
      rw [Nat.add_right_comm, Nat.add_assoc]
      exact hresults (i + 1) q' hq'
    rw [Nat.add_zero, ← hsettled] at hhead
    refine (Pool.run_await hhead).trans ?_
    rw [hsettled]
    refine (Pool.run_bind hrest).trans ?_
    rw [List.map_cons, CloseReport.of]
    cases (q.session.verdict r x q.work).1 <;> rfl

/-- While results are waited for the worker does what was sent. -/
theorem run_awaitEach_posted (hr : r.Independent) (x : ρ) (h : p.Rest) {posts : List (Post κ)}
    (hnodup : (posts.map Post.place).Nodup)
    (hplace : ∀ q ∈ posts, p.shared.sessions[q.place]? = some q.session) :
    (p.posted posts).run r (awaitEach (tickets posts p.worker.jobs.length)) =
      (.finished (.of (posts.map fun q => (q.session.id, (q.session.verdict r x q.work).1))),
        (p.posted posts).settle r) := by
  obtain ⟨hrest, -, -, hjobs, -⟩ := Pool.settle_posted hr x h hnodup hplace
  have hresults : ∀ i q, posts[i]? = some q →
      ((p.posted posts).settle r).worker.result? (p.worker.jobs.length + i) =
        some (q.session.verdict r x q.work).1 := by
    intro i q hq
    refine Pool.result_ended hjobs ?_
    rw [List.getElem?_append_right (Nat.le_add_right ..), Nat.add_sub_cancel_left, List.getElem?_map, hq]
    rfl
  have hsettled := run_awaitEach x (hrest.settle r) posts p.worker.jobs.length hresults
  cases posts with
  | nil =>
    rw [Pool.posted_nil, h.settle]
    rfl
  | cons q posts =>
    -- The first of them is waited for until the worker rests, so it might as well have rested before.
    have hfirst := hresults 0 q rfl
    have hagain := hfirst
    rw [← hrest.settle r] at hagain
    refine ((Pool.run_await hfirst).trans ?_).trans hsettled
    refine Eq.trans ?_ (Pool.run_await hagain).symm
    rw [hrest.settle r]

theorem exists_places {sessions : List (Session κ)} : ∀ {t : Table Nat},
    (∀ e ∈ t, ∃ s, sessions[e.2]? = some s ∧ s.id = e.1) →
    ∃ posts, t = places posts ∧ ∀ q ∈ posts, q.work = .release ∧ sessions[q.place]? = some q.session
  | [], _ => ⟨[], rfl, nofun⟩
  | (id, n) :: t, h => by
    obtain ⟨s, hs, rfl⟩ := h (id, n) List.mem_cons_self
    obtain ⟨posts, rfl, hposts⟩ := exists_places fun e he => h e (List.mem_cons_of_mem _ he)
    refine ⟨⟨n, s, .release⟩ :: posts, rfl, fun q hq => ?_⟩
    rcases List.mem_cons.1 hq with rfl | hq
    · exact ⟨rfl, hs⟩
    · exact hposts q hq

/-- Each live session is sent word to close, and no two are at one place. -/
theorem exists_posts (h : p.Rest) : ∃ posts : List (Post κ), p.registry = places posts ∧
    (∀ q ∈ posts, q.work = .release ∧ p.shared.sessions[q.place]? = some q.session) ∧
    (posts.map Post.place).Nodup := by
  have hnamed : ∀ e ∈ p.registry, ∃ s, p.shared.sessions[e.2]? = some s ∧ s.id = e.1 := by
    intro e he
    obtain ⟨s, hs, hid, -⟩ := h.session_of_get? (Table.Sorted.get?_of_mem h.sorted he)
    exact ⟨s, hs, hid⟩
  obtain ⟨posts, hregistry, hposts⟩ := exists_places hnamed
  have hkeys := Table.Sorted.keys_nodup h.sorted
  rw [hregistry, Table.keys, places, List.map_map] at hkeys
  refine ⟨posts, hregistry, hposts, List.pairwise_map.2 ?_⟩
  refine (List.pairwise_map.1 hkeys).imp_of_mem fun {q q'} hq hq' hne heq => hne ?_
  have hs := (hposts q hq).2
  rw [heq, (hposts q' hq').2] at hs
  exact congrArg Session.id (Option.some.inj hs).symm

/-- What the report says of one session, if each live session has a post. -/
theorem about_posts (x : ρ) (h : p.Rest) {posts : List (Post κ)} (hregistry : p.registry = places posts)
    (hposts : ∀ q ∈ posts, q.work = .release ∧ p.shared.sessions[q.place]? = some q.session) (id : String) :
    (CloseReport.of (posts.map fun q => (q.session.id, (q.session.verdict r x q.work).1))).about id =
      (Visit.closed r x id (p.session? id)).1 := by
  have hsame : (posts.map fun q => (q.session.id, (q.session.verdict r x q.work).1)) =
      (Table.keys p.registry).map fun id =>
        (id, ((p.session? id).map fun s => (s.verdict r x .release).1).getD (.error .workerClosed)) := by
    rw [Table.keys, hregistry, places, List.map_map, List.map_map]
    refine List.map_congr_left fun q hq => ?_
    obtain ⟨hwork, hs⟩ := hposts q hq
    have hmem : (q.session.id, q.place) ∈ p.registry := by
      rw [hregistry]
      exact List.mem_map_of_mem hq
    have hlive : p.session? q.session.id = some q.session := by
      rw [Pool.session?, Table.Sorted.get?_of_mem h.sorted hmem, Option.bind_some, hs]
    rw [hwork]
    simp only [Function.comp_apply, hlive]
    rfl
  have hattributed : Attributed (posts.map fun q => (q.session.id, (q.session.verdict r x q.work).1)) := by
    intro id e hmem
    obtain ⟨q, hq, heq⟩ := List.mem_map.1 hmem
    obtain ⟨hwork, hs⟩ := hposts q hq
    obtain ⟨rfl, hresult⟩ := Prod.mk.inj heq
    rw [hwork] at hresult
    exact Session.release_fails (h.free _ (List.mem_of_getElem? hs)) hresult
  rw [CloseReport.about_of id hattributed, hsame, Table.filter_keys _ id (Table.Sorted.keys_nodup h.sorted)]
  cases hlive : p.session? id with
  | none =>
    have hnot : id ∉ Table.keys p.registry := fun hmem => by
      rw [h.mem_keys_iff, hlive] at hmem
      cases hmem
    rw [if_neg hnot]
    rfl
  | some s =>
    rw [if_pos (h.mem_keys_iff.2 (by rw [hlive]; rfl))]
    rfl

/-- What is told of each session that was live, and none is live afterwards. -/
theorem run_closeAll (hr : r.Independent) (x : ρ) (h : p.Rest) :
    ∃ report p', p.run r closeAll = (.finished report, p') ∧ p'.Rest ∧ p'.catalog = p.catalog ∧
      ∀ id, report.about id = (Visit.closed r x id (p.session? id)).1 ∧ p'.session? id = none := by
  obtain ⟨posts, hregistry, hposts, hnodup⟩ := exists_posts h
  have hanswer : p.answer .drain = .went (places posts) { p with registry := [] } [] := by
    rw [← hregistry]
    rfl
  have hempty : Pool.Rest { p with registry := [] } :=
    ⟨h.resting, h.settled, h.free, .nil, nofun⟩
  have hplace : ∀ q ∈ posts, p.shared.sessions[q.place]? = some q.session := fun q hq => (hposts q hq).2
  have hrelease := run_releaseEach (r := r) posts hempty.resting.ended fun q hq => (hposts q hq).1
  have hawait := run_awaitEach_posted hr x hempty hnodup hplace
  obtain ⟨hrest, hcatalog, hregistry', -, -⟩ := Pool.settle_posted hr x hempty hnodup hplace
  refine ⟨_, _, (Pool.run_answer rfl hanswer).trans ((Pool.run_bind hrelease).trans
    ((Pool.run_bind hawait).trans (Pool.run_answer (a := .clearLog) rfl rfl))), ?_, ?_, ?_⟩
  · exact ⟨hrest.resting, hrest.settled, hrest.free, hrest.sorted, hrest.named⟩
  · exact hcatalog
  · intro id
    refine ⟨about_posts x h hregistry hposts id, ?_⟩
    rw [Pool.session?, show _ = [] from hregistry']
    rfl

end Caller
end SessionPool
