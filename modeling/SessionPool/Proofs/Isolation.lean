import SessionPool.Proofs.Sweep

/-! Isolation: a pool with requests one after the other, none of which reaches its deadline, on servers
    whose clients know nothing of each other. What is told of a session is the same as if the requests
    about other sessions were not made; and once it is closed, the same as if those about it before had not
    been made either. The reason is that each request, also one about all sessions, is a visit to each
    session that it concerns, and a visit depends on nothing but the session. -/

namespace SessionPool
variable {ρ κ : Type}

/-- What is asked of a pool. -/
inductive Request where
  | invoke (session name : String) (args : Arguments)
  | load (session : String) (state : Json) (verify : Bool)
  | close (session : String)
  | chat (session user assistant : String)
  | saveAll
  | closeAll

namespace Request

/-- Whether a request names a session. -/
def names : Request → String → Bool
  | invoke session _ _, id => session = id
  | load session _ _, id => session = id
  | close session, id => session = id
  | chat session _ _, id => session = id
  | saveAll, _ => false
  | closeAll, _ => false

/-- Whether a request names a session, or none. -/
def concerns : Request → String → Bool
  | saveAll, _ => true
  | closeAll, _ => true
  | q, id => q.names id

/-- Whether a session is closed by a request. -/
def closes : Request → String → Bool
  | close session, id => session = id
  | closeAll, _ => true
  | _, _ => false

end Request

/-- What comes of a request. -/
inductive Reception where
  | noted
  | gave (x : Response)
  /-- The caller does not return. -/
  | stuck

/-- What a reception says of a session that it concerns. -/
def Reception.about (id : String) : Reception → Reception
  | gave (.states t) => gave (.states (t.filter fun e => e.1 = id))
  | gave (.report report) => gave (.report (report.about id))
  | y => y

namespace Pool

/-- Serves a caller. -/
def attend (r : Remote ρ κ) (p : Pool ρ κ) (o : Order) : Reception × Pool ρ κ :=
  match p.run r (o.program p.catalog) with
  | (.finished x, p) => (.gave x, p)
  | (_, p) => (.stuck, p)

def serve (r : Remote ρ κ) (p : Pool ρ κ) : Request → Reception × Pool ρ κ
  | .invoke session name args => p.attend r (.invoke session name args)
  | .load session state verify => p.attend r (.load session state [] verify)
  | .close session => p.attend r (.close session)
  | .chat session user assistant => (.noted, p.chat session user assistant)
  | .saveAll => p.attend r .saveAll
  | .closeAll => p.attend r .closeAll

/-- The pool after requests. -/
def after (r : Remote ρ κ) (p : Pool ρ κ) (requests : List Request) : Pool ρ κ :=
  requests.foldl (fun p q => (p.serve r q).2) p

/-- Requests, each with what comes of it. -/
def dialogue (r : Remote ρ κ) : Pool ρ κ → List Request → List (Request × Reception)
  | _, [] => []
  | p, q :: rest => (q, (p.serve r q).1) :: dialogue r (p.serve r q).2 rest

/-- A pool as it is made, before anything is asked of it. -/
inductive Made (r : Remote ρ κ) : Pool ρ κ → Prop where
  | ofCatalog (c : Catalog) (o : Options) (remote : ρ) : Made r (ofCatalog c o remote)
  | start {c : Config} {o : Options} {remote remote' : ρ} {p : Pool ρ κ}
      (h : start r c o remote = (.ok p, remote')) : Made r p

end Pool

/-- What is told of a session in a dialogue. -/
def told (id : String) (d : List (Request × Reception)) : List Reception :=
  (d.filter fun e => e.1.concerns id).map fun e => e.2.about id

/-- A pool keeps its sessions apart. -/
structure Isolated (r : Remote ρ κ) (p : Pool ρ κ) : Prop where
  returns : ∀ requests, ∀ e ∈ p.dialogue r requests, e.2 ≠ .stuck
  /-- The requests that name other sessions might as well not be made. -/
  apart : ∀ id requests, told id (p.dialogue r requests) =
    told id (p.dialogue r (requests.filter fun q => q.concerns id))
  /-- After a session is closed, those that named it until then might as well not have been made. -/
  traceless : ∀ id before (q : Request) later, q.closes id = true →
    told id ((p.after r (before ++ [q])).dialogue r later) =
      told id ((p.after r ((before ++ [q]).filter fun q => !q.names id)).dialogue r later)
  /-- And the one that closes it neither. -/
  forgotten : ∀ id before (q : Request) later, q.closes id = true →
    told id ((p.after r (before ++ [q])).dialogue r later) =
      told id ((p.after r (before.filter fun q => !q.names id)).dialogue r later)

namespace Request
variable (r : Remote ρ κ) (x : ρ) (c : Catalog) (id : String)

/-- What a request says of a session that it concerns, and what becomes of that. -/
def visit : Request → Visit κ Reception
  | invoke _ name args => fun v =>
    (.gave (.result (Visit.invoke r x c id name args v).1), (Visit.invoke r x c id name args v).2)
  | load _ state verify => fun v =>
    (.gave (.outcome (Visit.loadWith r x c id state [] verify v).1),
      (Visit.loadWith r x c id state [] verify v).2)
  | close _ => fun v => (.gave (.closed (Visit.close r x id v).1), (Visit.close r x id v).2)
  | chat _ _ _ => fun v => (.noted, v)
  | saveAll => fun v => (.gave (.states (Visit.saved r x c id v).1), (Visit.saved r x c id v).2)
  | closeAll => fun v => (.gave (.report (Visit.closed r x id v).1), (Visit.closed r x id v).2)

/-- Requests that concern a session, as visits one after the other. -/
def tour : List Request → Option (Session κ) → List Reception
  | [], _ => []
  | q :: rest, v => (q.visit r x c id v).1 :: tour rest (q.visit r x c id v).2

end Request

namespace Pool
variable {r : Remote ρ κ} {x : ρ} {c : Catalog} {p p' : Pool ρ κ} {id : String}

/-- What serving a request does: for each session that it concerns it is a visit, and for the others it is
    nothing. -/
structure Attends (r : Remote ρ κ) (x : ρ) (p : Pool ρ κ) (q : Request) (y : Reception)
    (p' : Pool ρ κ) : Prop where
  returns : y ≠ .stuck
  rest : p'.Rest
  catalog : p'.catalog = p.catalog
  visits : ∀ id, q.concerns id = true → y.about id = (q.visit r x p.catalog id (p.session? id)).1 ∧
    p'.session? id = (q.visit r x p.catalog id (p.session? id)).2
  others : ∀ id, q.concerns id = false → p'.session? id = p.session? id

theorem attend_eq {α : Type} {o : Order} {caller : Caller α} {f : α → Response} {y : α}
    (hrun : p.run r caller = (.finished y, p'))
    (hprogram : o.program p.catalog = caller >>= fun y => pure (f y)) :
    p.attend r o = (.gave (f y), p') := by
  rw [attend, hprogram, run_bind hrun]
  rfl

/-- A request on one session. -/
theorem attends_of_visits {α : Type} {id : String} {q : Request} {o : Order} {caller : Caller α}
    {f : α → Response} {visit : Visit κ α} (h : p.Rest) (hvisits : caller.Visits r p.catalog id visit)
    (hprogram : o.program p.catalog = caller >>= fun y => pure (f y))
    (hconcerns : ∀ j, q.concerns j = decide (id = j))
    (habout : ∀ y, (Reception.gave (f y)).about id = .gave (f y))
    (hvisit : ∀ v, q.visit r x p.catalog id v = (.gave (f (visit v).1), (visit v).2)) :
    Attends r x p q (p.attend r o).1 (p.attend r o).2 := by
  obtain ⟨p', hrun, hserves⟩ := hvisits p h rfl
  rw [attend_eq hrun hprogram]
  refine ⟨nofun, hserves.rest, hserves.catalog, fun j hj => ?_, fun j hj => hserves.others j fun heq => ?_⟩
  · rw [hconcerns] at hj
    obtain rfl := of_decide_eq_true hj
    rw [habout, hvisit]
    exact ⟨rfl, hserves.here⟩
  · rw [hconcerns] at hj
    exact of_decide_eq_false hj heq.symm

theorem serve_attends (hr : r.Independent) (x : ρ) (h : p.Rest) (q : Request) :
    Attends r x p q (p.serve r q).1 (p.serve r q).2 := by
  cases q with
  | invoke session name args =>
    exact attends_of_visits h (Caller.invoke_visits hr x name args) rfl (fun _ => rfl) (fun _ => rfl)
      fun _ => rfl
  | load session state verify =>
    exact attends_of_visits h (Caller.loadWith_visits hr x state [] verify) rfl (fun _ => rfl) (fun _ => rfl)
      fun _ => rfl
  | close session =>
    exact attends_of_visits h (Caller.close_visits hr x) rfl (fun _ => rfl) (fun _ => rfl) fun _ => rfl
  | chat session user assistant =>
    have hrest : (p.chat session user assistant).Rest :=
      ⟨h.resting, h.settled, h.free, h.sorted, h.named⟩
    exact ⟨nofun, hrest, rfl, fun _ _ => ⟨rfl, rfl⟩, fun _ _ => rfl⟩
  | saveAll =>
    obtain ⟨states, p', hrun, h', hc, hall⟩ := Caller.run_saveAll hr x h rfl
    rw [serve, attend_eq (f := Response.states) hrun rfl]
    refine ⟨nofun, h', hc, fun id _ => ⟨?_, (hall id).2⟩, nofun⟩
    rw [Reception.about, (hall id).1]
    rfl
  | closeAll =>
    obtain ⟨report, p', hrun, h', hc, hall⟩ := Caller.run_closeAll hr x h
    rw [serve, attend_eq (f := Response.report) hrun rfl]
    refine ⟨nofun, h', hc, fun id _ => ⟨?_, ?_⟩, nofun⟩
    · rw [Reception.about, (hall id).1]
      rfl
    · rw [(hall id).2]
      cases p.session? id <;> rfl

/-- A dialogue says of a session what a tour of the requests that concern it says. -/
theorem told_dialogue (hr : r.Independent) (x : ρ) (id : String) : ∀ (requests : List Request)
    {p : Pool ρ κ}, p.Rest → told id (p.dialogue r requests) =
      Request.tour r x p.catalog id (requests.filter fun q => q.concerns id) (p.session? id)
  | [], _, _ => rfl
  | q :: rest, p, h => by
    obtain ⟨-, h', hcatalog, hvisits, hothers⟩ := serve_attends hr x h q
    have ih := told_dialogue hr x id rest h'
    rw [dialogue, told, List.filter_cons, List.filter_cons]
    cases hq : q.concerns id with
    | true =>
      obtain ⟨hword, hleaves⟩ := hvisits id hq
      rw [if_pos rfl, if_pos rfl, List.map_cons, Request.tour, ← hleaves, ← hcatalog, ← ih, hcatalog,
        ← hword]
      rfl
    | false =>
      rw [if_neg Bool.false_ne_true, if_neg Bool.false_ne_true, ← hothers id hq, ← hcatalog]
      exact ih

theorem dialogue_returns (hr : r.Independent) : ∀ (requests : List Request) {p : Pool ρ κ}, p.Rest →
    ∀ e ∈ p.dialogue r requests, e.2 ≠ .stuck
  | [], _, _, _, he => absurd he List.not_mem_nil
  | q :: rest, p, h, e, he => by
    obtain ⟨hreturns, h', -⟩ := serve_attends hr p.shared.remote h q
    rcases List.mem_cons.1 he with rfl | he
    · exact hreturns
    · exact dialogue_returns hr rest h' e he

theorem after_rest (hr : r.Independent) : ∀ (requests : List Request) {p : Pool ρ κ}, p.Rest →
    (p.after r requests).Rest ∧ (p.after r requests).catalog = p.catalog
  | [], _, h => ⟨h, rfl⟩
  | q :: rest, p, h => by
    obtain ⟨-, h', hcatalog, -⟩ := serve_attends hr p.shared.remote h q
    obtain ⟨hlast, hsame⟩ := after_rest hr rest h'
    exact ⟨hlast, hsame.trans hcatalog⟩

theorem after_append (requests later : List Request) :
    p.after r (requests ++ later) = (p.after r requests).after r later := List.foldl_append ..

/-- A session that is not live does not become so as long as no request names it. -/
theorem serve_absent (hr : r.Independent) (h : p.Rest) {q : Request} (hnone : p.session? id = none)
    (hq : q.names id = false) : (p.serve r q).2.session? id = none := by
  obtain ⟨-, -, -, hvisits, hothers⟩ := serve_attends hr p.shared.remote h q
  cases q with
  | saveAll => rw [(hvisits id rfl).2, hnone]; rfl
  | closeAll => rw [(hvisits id rfl).2, hnone]; rfl
  | _ => rw [hothers id hq, hnone]

theorem after_absent (hr : r.Independent) : ∀ (requests : List Request) {p : Pool ρ κ}, p.Rest →
    p.session? id = none → (∀ q ∈ requests, q.names id = false) → (p.after r requests).session? id = none
  | [], _, _, hnone, _ => hnone
  | q :: rest, p, h, hnone, hnames => by
    obtain ⟨-, h', -⟩ := serve_attends hr p.shared.remote h q
    have hnone' := serve_absent hr h hnone (hnames q List.mem_cons_self)
    exact after_absent hr rest h' hnone' fun q' hq' => hnames q' (List.mem_cons_of_mem _ hq')

/-- Closing leaves nothing. -/
theorem serve_closes (hr : r.Independent) (h : p.Rest) {q : Request} (hq : q.closes id = true) :
    (p.serve r q).2.session? id = none := by
  obtain ⟨-, -, -, hvisits, -⟩ := serve_attends hr p.shared.remote h q
  cases q with
  | close session =>
    rw [(hvisits id hq).2]
    exact Visit.close_leaves r p.shared.remote id (p.session? id)
  | closeAll =>
    rw [(hvisits id rfl).2]
    cases p.session? id <;> rfl
  | _ => cases hq

/-- A pool is made without sessions, and its worker has at most asked for the operations. -/
theorem Made.blank (h : p.Made r) : ∃ c o remote worker,
    p = { Pool.ofCatalog c o remote with worker := worker } ∧ (worker = {} ∨ worker = .afterOne) := by
  cases h with
  | ofCatalog c o remote => exact ⟨c, o, remote, {}, rfl, .inl rfl⟩
  | @start c o remote remote' p h =>
    unfold Pool.start at h
    split at h
    · cases h
    · generalize (Discovery.ofConfig c).run r.answer remote = survey at h
      obtain ⟨found, remote'⟩ := survey
      cases found with
      | error e => cases h
      | ok catalog =>
        cases h
        exact ⟨catalog, o, remote', .afterOne, rfl, .inr rfl⟩

theorem Made.rest (h : p.Made r) : p.Rest ∧ p.registry = [] := by
  obtain ⟨c, o, remote, worker, rfl, rfl | rfl⟩ := h.blank
  · exact ⟨⟨⟨⟨rfl, rfl, rfl, rfl⟩, rfl, rfl⟩, nofun, nofun, .nil, nofun⟩, rfl⟩
  · exact ⟨⟨⟨⟨rfl, rfl, rfl, rfl⟩, rfl, rfl⟩, nofun, nofun, .nil, nofun⟩, rfl⟩

theorem Made.absent (h : p.Made r) (id : String) : p.session? id = none := by
  rw [session?, h.rest.2]
  rfl

/-- Two pools over one catalog tell the same of a session that is live in neither. -/
theorem told_absent (hr : r.Independent) (h : p.Rest) (h' : p'.Rest) (hc : p'.catalog = p.catalog)
    (hnone : p.session? id = none) (hnone' : p'.session? id = none) (later : List Request) :
    told id (p.dialogue r later) = told id (p'.dialogue r later) := by
  have x := p.shared.remote
  rw [told_dialogue hr x id later h, told_dialogue hr x id later h', hc, hnone, hnone']

/-- Once a session is closed, requests that do not name it are as good as those that were made. -/
theorem told_reborn (hr : r.Independent) (hp : p.Made r) {before others : List Request} {q : Request}
    (hq : q.closes id = true) (hothers : ∀ o ∈ others, o.names id = false) (later : List Request) :
    told id ((p.after r (before ++ [q])).dialogue r later) =
      told id ((p.after r others).dialogue r later) := by
  obtain ⟨hrest, -⟩ := hp.rest
  obtain ⟨hbefore, hcatalog⟩ := after_rest hr before hrest
  obtain ⟨hclosed, hcatalog'⟩ := after_rest hr [q] hbefore
  obtain ⟨hother, hcatalog''⟩ := after_rest hr others hrest
  have hgone : ((p.after r before).serve r q).2.session? id = none := serve_closes hr hbefore hq
  have hnever := after_absent hr others hrest (hp.absent id) hothers
  rw [after_append]
  exact told_absent hr hclosed hother (by rw [hcatalog'', hcatalog', hcatalog]) hgone hnever later

end Pool

/-- Independent servers keep the sessions of a pool apart. -/
theorem Remote.Independent.isolated {r : Remote ρ κ} {p : Pool ρ κ} (hr : r.Independent)
    (hp : p.Made r) : Isolated r p where
  returns requests := Pool.dialogue_returns hr requests hp.rest.1
  apart id requests := by
    have x := p.shared.remote
    rw [Pool.told_dialogue hr x id _ hp.rest.1, Pool.told_dialogue hr x id _ hp.rest.1,
      List.filter_filter]
    simp only [Bool.and_self]
  traceless id before q later hq := by
    refine Pool.told_reborn hr hp hq (fun o ho => ?_) later
    simpa using (List.mem_filter.1 ho).2
  forgotten id before q later hq := by
    refine Pool.told_reborn hr hp hq (fun o ho => ?_) later
    simpa using (List.mem_filter.1 ho).2

/-- Servers that count all calls, with clients that only know which of their own is the first. A client
    that was called just once does not close. -/
def tally : Remote Nat Nat where
  connect _ all := (.ok 0, all)
  list client all := ((.ok [], client), all)
  call client _ _ all :=
    ((.replied (.ok (if client = 0 then "first" else "again")), client + 1), all + 1)
  close client all := (if client = 1 then .error (.unexpected "just once") else .ok (), all)
  stalls _ _ _ := false

theorem tally_independent : tally.Independent :=
  ⟨fun _ _ _ => rfl, fun _ _ _ _ _ => rfl, fun _ _ _ => rfl, fun _ _ _ => rfl⟩

/-- A pool for one group. -/
def parlour : Pool Nat Nat := .ofCatalog [("game", ⟨⟨"server", none, []⟩, []⟩)] {} 0

/-- Two guests, of whom one is closed and comes again. -/
def guests : List Request :=
  [.invoke "game-a" "step" (.structured []), .invoke "game-b" "step" (.structured []), .saveAll,
    .close "game-b", .invoke "game-a" "step" (.structured []), .invoke "game-b" "step" (.structured []),
    .closeAll]

theorem isolated_guests : Isolated tally parlour ∧ told "game-b" (parlour.dialogue tally guests) =
    [.gave (.result (.ok ⟨"first", .str "first"⟩)), .gave (.states [("game-b", .str "again")]),
      .gave (.closed (.ok true)), .gave (.result (.ok ⟨"first", .str "first"⟩)),
      .gave (.report ⟨[], [.closeFailed "game-b" "just once"]⟩)] :=
  ⟨Remote.Independent.isolated tally_independent (.ofCatalog ..), rfl⟩

end SessionPool
