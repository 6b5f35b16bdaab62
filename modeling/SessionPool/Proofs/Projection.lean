import SessionPool.Proofs.Custom

/-! Projection: what happens on one session of a pool is a run of a lane. Each session of a run has its
    lane, whose notes are the events of the run that concern the session; a job stands at a station of its
    work and has no move left but those of the station. Work of other sessions, callers and deadlines
    leave a lane as it is. The main statement is `Scene.Run.kept`: every run is `Kept`. -/

namespace SessionPool

namespace Event
variable {κ : Type}

/-- What an event is in the lane of a session. -/
def note? (n : Nat) : Event κ → Option (Note κ)
  | .asked _ (.submit m w) (.ok t) => if m = n then some (.arrived t w) else none
  | .work m t d => if m = n then some (.did t d) else none
  | _ => none

end Event

/-- What happened on a session. -/
def notes {κ : Type} (n : Nat) (past : List (Event κ)) : List (Note κ) := past.filterMap (Event.note? n)

/-- What a caller knows and owes. -/
structure Ledger where
  known : List Nat := []
  owed : List Nat := []

/-- What a caller knows and owes after a reply. -/
def Ledger.after (g : Ledger) (a : Ask) (reply : a.Reply) : Ledger :=
  ⟨a.known g.known reply, a.owed g.owed reply⟩

/-- What the callers know and owe after an event. -/
def Event.enter {κ : Type} (ledgers : List Ledger) : Event κ → List Ledger
  | .came _ => ledgers ++ [{}]
  | .asked i a reply => ledgers.modify i fun g => g.after a reply
  | _ => ledgers

/-- What the callers know and owe after a run. -/
def ledgers {κ : Type} (past : List (Event κ)) : List Ledger := past.foldl Event.enter []

/-- Where a job is that stands at a station; a dropped job is dead, unless the worker has ended. -/
def Job.IsAt {κ : Type} (n : Nat) (ended : Bool) (st : Station κ) (told : Bool) :
    Job (Deed κ) Deed.Reply Yield → Prop
  | .pending p => Errand.Follows n p st ∧ told = false
  | .finished result => st = .ended result ∧ told = true
  | .dropped => ended = false → st = .dead

/-- What becomes of a job at a move: it goes on if it gets a reply, and dies if it gets none. -/
def Job.going {A : Type} {R : A → Type} {α : Type} {a : A} (next : R a → Program A R (Except PoolError α)) :
    Option (R a) → Job A R α
  | some reply => .pending (next reply)
  | none => .dropped

/-- A job that gets the word of a server is where the word leads. -/
theorem Job.isAt_going {κ : Type} {n : Nat} {ended : Bool} {st : Station κ} {d : Deed κ}
    {next : d.Reply → Errand κ (Except PoolError Yield)} {word : Word κ}
    (h : ∀ reply, Errand.Follows n (next reply) (st.after d.move reply)) :
    (Job.going next (word.reply d.move)).IsAt n ended (st.heard d.move word) false := by
  rw [Station.heard]
  cases word.reply d.move with
  | none => exact fun _ => rfl
  | some reply => exact ⟨h reply, rfl⟩

namespace Scene
variable {ρ κ : Type}

abbrev sessions (S : Scene ρ κ) : List (Session κ) := S.pool.shared.sessions

abbrev jobs (S : Scene ρ κ) : List (Job (Deed κ) Deed.Reply Yield) := S.pool.worker.jobs

/-- Whether callers may mark a session of the group ready. -/
def Marks (c : Catalog) (id : String) : Prop := c.isStateless (SessionKey.parse id).group = true

/-- A lane that a session is in, with its work. -/
structure HasLane (S : Scene ρ κ) (c : Catalog) (n : Nat) (past : List (Note κ)) (l : Lane κ) : Prop where
  session : S.sessions[n]? = some l.session
  run : Lane.Run (Marks c l.session.id) l.session.id l.session.locator past l
  works : ∀ (t : Nat) (w : Work), S.works[t]? = some (n, w) ↔ ∃ st, l.units t = some (w, st)
  jobs : ∀ t w st, l.units t = some (w, st) →
    ∃ job, S.jobs[t]? = some job ∧ job.IsAt n S.pool.worker.ended st (l.told t)
  flying : ∀ t w st, l.units t = some (w, st) → (l.flying t = true ↔ t ∈ S.flying)

/-- The callers go on by their customs, and know no sessions but those that are there. -/
structure Customary (c : Catalog) (ledgers : List Ledger) (callers : List (Caller Response))
    (count : Nat) : Prop where
  counted : callers.length = ledgers.length
  abides : ∀ (i : Nat) (p : Caller Response) (g : Ledger), callers[i]? = some p → ledgers[i]? = some g →
    Caller.Abides c p g.known g.owed
  known : ∀ g ∈ ledgers, ∀ n ∈ g.known ++ g.owed, n < count

/-- What a run keeps: each session has its lane, the registry names sessions by their ids, work is sent
    on sessions that are there, and the callers go on by their customs. -/
structure Kept (c : Catalog) (past : List (Event κ)) (S : Scene ρ κ) : Prop where
  catalog : S.pool.catalog = c
  lanes : ∀ n, n < S.sessions.length → ∃ l, S.HasLane c n (notes n past) l
  silent : ∀ n, S.sessions.length ≤ n → notes n past = []
  tickets : S.works.length = S.jobs.length
  placed : ∀ (t n : Nat) (w : Work), S.works[t]? = some (n, w) → n < S.sessions.length
  aloft : S.flying.Nodup ∧ ∀ t ∈ S.flying, t < S.works.length
  named : ∀ id n, (id, n) ∈ S.pool.registry → ∃ s, S.sessions[n]? = some s ∧ s.id = id
  callers : Customary c (ledgers past) S.callers S.sessions.length

end Scene

theorem notes_append {κ : Type} (n : Nat) (past : List (Event κ)) (e : Event κ) :
    notes n (past ++ [e]) = notes n past ++ (e.note? n).toList := by
  rw [notes, notes, List.filterMap_append]
  cases h : e.note? n <;> simp [h]

theorem notes_quiet {κ : Type} {n : Nat} {e : Event κ} (past : List (Event κ)) (h : e.note? n = none) :
    notes n (past ++ [e]) = notes n past := by
  rw [notes_append, h]
  exact List.append_nil _

theorem ledgers_append {κ : Type} (past : List (Event κ)) (e : Event κ) :
    ledgers (past ++ [e]) = e.enter (ledgers past) := by
  rw [ledgers, List.foldl_append]
  rfl

namespace Scene
variable {ρ κ : Type} {r : Remote ρ κ} {c : Catalog} {o : Options} {remote : ρ} {past : List (Event κ)}
  {S S' : Scene ρ κ} {n t : Nat} {w : Work} {l l' : Lane κ} {st : Station κ} {e : Event κ}

theorem Kept.empty (c : Catalog) (o : Options) (remote : ρ) :
    Kept c ([] : List (Event κ)) (start c o remote : Scene ρ κ) where
  catalog := rfl
  lanes _ h := absurd h (Nat.not_lt_zero _)
  silent _ _ := rfl
  tickets := rfl
  placed _ _ _ h := by simp [start] at h
  aloft := ⟨.nil, fun _ h => (nomatch h)⟩
  named _ _ h := by simp [start, Pool.ofCatalog] at h
  callers := ⟨rfl, fun _ _ _ h => by simp [start] at h, fun _ h => by simp [ledgers] at h⟩

/-! ### Steps of jobs -/

/-- A lane stays as it is while its session and its jobs do; a job may be dropped when the worker ends. -/
theorem HasLane.stay {past : List (Note κ)} (h : S.HasLane c n past l)
    (hs : S'.sessions[n]? = S.sessions[n]?)
    (hw : ∀ (t : Nat) (w : Work), S'.works[t]? = some (n, w) ↔ S.works[t]? = some (n, w))
    (hj : ∀ (t : Nat) (w : Work) (job : Job (Deed κ) Deed.Reply Yield) (st : Station κ) (told : Bool),
      S.works[t]? = some (n, w) → S.jobs[t]? = some job →
      job.IsAt n S.pool.worker.ended st told →
      ∃ job', S'.jobs[t]? = some job' ∧ job'.IsAt n S'.pool.worker.ended st told)
    (hf : ∀ (t : Nat) (w : Work), S.works[t]? = some (n, w) → (t ∈ S'.flying ↔ t ∈ S.flying)) :
    S'.HasLane c n past l where
  session := hs.trans h.session
  run := h.run
  works t w := (hw t w).trans (h.works t w)
  jobs t w st hu := by
    obtain ⟨job, hjob, hat⟩ := h.jobs t w st hu
    exact hj t w job st _ ((h.works t w).2 ⟨st, hu⟩) hjob hat
  flying t w st hu := (h.flying t w st hu).trans (hf t w ((h.works t w).2 ⟨st, hu⟩)).symm

/-- The lane of a session, from one of its jobs. -/
theorem Kept.lane_of_work (k : Kept c past S) (ht : S.works[t]? = some (n, w)) :
    ∃ l st, S.HasLane c n (notes n past) l ∧ l.units t = some (w, st) := by
  obtain ⟨l, hl⟩ := k.lanes n (k.placed t n w ht)
  obtain ⟨st, hu⟩ := (hl.works t w).1 ht
  exact ⟨l, st, hl, hu⟩

/-- A job that has something left to do stands at a station of its work. -/
theorem Kept.job (k : Kept c past S) {p : Errand κ (Except PoolError Yield)} (ht : S.HasJob t p) :
    ∃ n w l st, S.works[t]? = some (n, w) ∧ S.HasLane c n (notes n past) l ∧ l.units t = some (w, st) ∧
      Errand.Follows n p st ∧ l.told t = false := by
  have hlt : t < S.works.length := k.tickets ▸ (List.getElem?_eq_some_iff.1 ht.1).1
  rcases hx : S.works[t] with ⟨n, w⟩
  have hw : S.works[t]? = some (n, w) := by rw [List.getElem?_eq_getElem hlt, hx]
  obtain ⟨l, st, hl, hu⟩ := k.lane_of_work hw
  obtain ⟨job, hjob, hat⟩ := hl.jobs t w st hu
  rw [ht.1, Option.some.injEq] at hjob
  subst hjob
  exact ⟨n, w, l, st, hw, hl, hu, hat⟩

/-- A step of a job on its session. Whatever else a step of a job may change is said by the premises, so
    that each kind of step has to show only its own part. -/
theorem Kept.work (k : Kept c past S) (hw : S.works[t]? = some (n, w))
    (hl : S.HasLane c n (notes n past) l) {d : Doing κ} {st' : Station κ}
    (hstep : Lane.Step l (.did t d) l') (hu' : l'.units t = some (w, st'))
    (hcatalog : S'.pool.catalog = S.pool.catalog) (hregistry : S'.pool.registry = S.pool.registry)
    (hcallers : S'.callers = S.callers) (hworks : S'.works = S.works)
    (hsessions : S'.sessions = S.sessions.set n l'.session)
    (hended : S'.pool.worker.ended = S.pool.worker.ended) {job : Job (Deed κ) Deed.Reply Yield}
    (hjobs : S'.jobs = S.jobs.set t job) (hat : job.IsAt n S.pool.worker.ended st' (l'.told t))
    (haloft : S'.flying.Nodup) (hf : ∀ u, u ≠ t → (u ∈ S'.flying ↔ u ∈ S.flying))
    (hf' : l'.flying t = true ↔ t ∈ S'.flying) :
    Kept c (past ++ [.work n t d]) S' := by
  have hn : n < S.sessions.length := (List.getElem?_eq_some_iff.1 hl.session).1
  have hlen : S'.sessions.length = S.sessions.length := by rw [hsessions, List.length_set]
  have hjt : t < S.jobs.length := k.tickets ▸ (List.getElem?_eq_some_iff.1 hw).1
  have hnotes : ∀ m, m ≠ n → notes m (past ++ [.work n t d]) = notes m past := by
    intro m hm
    rw [notes_append]
    simp [Event.note?, hm.symm]
  have hledgers : ledgers (past ++ [.work n t d]) = ledgers past := by rw [ledgers_append]; rfl
  refine
    { catalog := hcatalog.trans k.catalog
      lanes := fun m hm => ?_
      silent := fun m hm => ?_
      tickets := by rw [hworks, hjobs, List.length_set]; exact k.tickets
      placed := fun u m v hu => by rw [hlen]; exact k.placed u m v (hworks ▸ hu)
      aloft := ⟨haloft, fun u hu => ?_⟩
      named := fun id m hm => ?_
      callers := by rw [hcallers, hledgers, hlen]; exact k.callers }
  · by_cases hmn : m = n
    · subst hmn
      obtain ⟨hid, hlocator⟩ := hstep.session_names
      refine ⟨l', ⟨?_, ?_, fun u v => ?_, fun u v st hu => ?_, fun u v st hu => ?_⟩⟩
      · rw [hsessions, List.getElem?_set_self hn]
      · rw [notes_append, hid, hlocator]
        simp only [Event.note?, Option.toList]
        exact hl.run.step hstep
      · rw [hworks, hl.works]
        by_cases hut : u = t
        · subst hut
          have hst : ∃ st, l.units u = some (w, st) := (hl.works u w).1 hw
          constructor
          · rintro ⟨st, h⟩
            obtain ⟨st₀, h₀⟩ := hst
            rw [h₀, Option.some.injEq, Prod.mk.injEq] at h
            exact ⟨st', h.1 ▸ hu'⟩
          · rintro ⟨st, h⟩
            rw [hu', Option.some.injEq, Prod.mk.injEq] at h
            exact h.1 ▸ hst
        · rw [(hstep.others hut).1]
      · rw [hjobs, hended]
        by_cases hut : u = t
        · subst hut
          rw [hu', Option.some.injEq, Prod.mk.injEq] at hu
          exact ⟨job, List.getElem?_set_self hjt, hu.2 ▸ hat⟩
        · obtain ⟨hunits, -, htold⟩ := hstep.others hut
          rw [List.getElem?_set_ne (Ne.symm hut), htold]
          exact hl.jobs u v st (hunits ▸ hu)
      · by_cases hut : u = t
        · exact hut ▸ hf'
        · obtain ⟨hunits, hflying, -⟩ := hstep.others hut
          rw [hflying, hf u hut]
          exact hl.flying u v st (hunits ▸ hu)
    · obtain ⟨l₁, hl₁⟩ := k.lanes m (hlen ▸ hm)
      have hother : ∀ u v, S.works[u]? = some (m, v) → u ≠ t := by
        rintro u v hv rfl
        rw [hw] at hv
        cases hv
        exact hmn rfl
      rw [hnotes m hmn]
      refine ⟨l₁, hl₁.stay ?_ (fun _ _ => by rw [hworks]) (fun u v j st told hv hj hat => ⟨j, ?_, ?_⟩)
        fun u v hv => hf u (hother u v hv)⟩
      · rw [hsessions, List.getElem?_set_ne (Ne.symm hmn)]
      · rw [hjobs, List.getElem?_set_ne (Ne.symm (hother u v hv))]
        exact hj
      · rw [hended]; exact hat
  · have hmn : m ≠ n := by rintro rfl; omega
    rw [hnotes m hmn]
    exact k.silent m (hlen ▸ hm)
  · rw [hworks]
    by_cases hut : u = t
    · exact hut ▸ (List.getElem?_eq_some_iff.1 hw).1
    · exact k.aloft.2 u ((hf u hut).1 hu)
  · obtain ⟨s, hs, hid⟩ := k.named id m (hregistry ▸ hm)
    by_cases hmn : m = n
    · subst hmn
      rw [hl.session, Option.some.injEq] at hs
      refine ⟨l'.session, by rw [hsessions, List.getElem?_set_self hn], ?_⟩
      rw [hstep.session_names.1, hs, hid]
    · exact ⟨s, by rw [hsessions, List.getElem?_set_ne (Ne.symm hmn)]; exact hs, hid⟩

theorem Kept.queue (k : Kept c past S) {d : Deed κ} {next : d.Reply → Errand κ (Except PoolError Yield)}
    {sh : Shared ρ κ} (ht : S.HasJob t (.act d next)) (hd : d.move.isRemote = false)
    (hw : Shared.host r t d S.pool.shared = .waits sh) :
    Kept c (past ++ [.work d.session t .queued]) { S with pool := { S.pool with shared := sh } } := by
  obtain ⟨n, w, l, st, hwork, hl, hu, ⟨rfl, hm, hnext⟩, htold⟩ := k.job ht
  obtain ⟨reply, ho⟩ := Move.own_of_not_remote l.session hd
  rcases Shared.host_own (r := r) (t := t) hl.session ho with ⟨woken, hgo, -⟩ | ⟨hwait, hlock, hhead⟩
  · rw [hgo] at hw; cases hw
  rw [hwait] at hw
  cases hw
  obtain ⟨w', rfl⟩ := Station.waiting_of_lock (hm.trans (congrArg some hlock))
  exact k.work hwork hl (.queue hu hhead) hu rfl rfl rfl rfl rfl rfl (set_self ht.1).symm
    ⟨⟨rfl, hm, hnext⟩, htold⟩ k.aloft.1 (fun _ _ => Iff.rfl) (hl.flying t w _ hu)

theorem Kept.move (k : Kept c past S) {d : Deed κ} {next : d.Reply → Errand κ (Except PoolError Yield)}
    {reply : d.Reply} {sh : Shared ρ κ} {woken : List Nat} (ht : S.HasJob t (.act d next))
    (hd : d.move.isRemote = false) (hw : Shared.host r t d S.pool.shared = .went reply sh woken) :
    Kept c (past ++ [.work d.session t (.moved d.move)])
      { S with pool := S.pool.withJob t (.pending (next reply)) sh } := by
  obtain ⟨n, w, l, st, hwork, hl, hu, ⟨rfl, hm, hnext⟩, htold⟩ := k.job ht
  obtain ⟨reply', ho⟩ := Move.own_of_not_remote l.session hd
  rcases Shared.host_own (r := r) (t := t) hl.session ho with ⟨woken', hgo, hhead⟩ | ⟨hwait, -⟩
  · rw [hgo] at hw
    cases hw
    exact k.work hwork hl (.move hu hm ho hhead) (Lane.put_self ..) rfl rfl rfl rfl rfl rfl rfl
      ⟨hnext reply, htold⟩ k.aloft.1 (fun _ _ => Iff.rfl) (hl.flying t w _ hu)
  · rw [hwait] at hw; cases hw

theorem Kept.send (k : Kept c past S) {d : Deed κ} {next : d.Reply → Errand κ (Except PoolError Yield)}
    (ht : S.HasJob t (.act d next)) (hd : d.move.isRemote = true) (hf : t ∉ S.flying) :
    Kept c (past ++ [.work d.session t (.sent d.move)]) { S with flying := t :: S.flying } := by
  obtain ⟨n, w, l, st, hwork, hl, hu, ⟨rfl, hm, hnext⟩, htold⟩ := k.job ht
  have hgrounded : l.flying t = false := by
    rw [Bool.eq_false_iff, ne_eq, hl.flying t w st hu]
    exact hf
  exact k.work hwork hl (.send hu hm hd hgrounded) hu rfl rfl rfl rfl (set_self hl.session).symm rfl
    (set_self ht.1).symm ⟨⟨rfl, hm, hnext⟩, htold⟩ (List.nodup_cons.2 ⟨hf, k.aloft.1⟩)
    (fun u hut => by simp [hut]) (by simp)

theorem Kept.hear (k : Kept c past S) {d : Deed κ} {next : d.Reply → Errand κ (Except PoolError Yield)}
    {sh : Shared ρ κ} {woken : List Nat} {s : Session κ} {word : Word κ} {remote : ρ}
    (ht : S.HasJob t (.act d next)) (hf : t ∈ S.flying)
    (hs : S.pool.shared.sessions[d.session]? = some s)
    (hr : r.word s S.pool.shared.remote d.move = some (word, remote)) (reply : Option d.Reply)
    (hw : Shared.host r t d S.pool.shared = Shared.turn sh d.move reply woken) :
    Kept c (past ++ [.work d.session t (.heard d.move word)])
      { S with pool := S.pool.withJob t (.going next reply) sh, flying := S.flying.erase t } := by
  obtain ⟨n, w, l, st, hwork, hl, hu, ⟨rfl, hm, hnext⟩, htold⟩ := k.job ht
  obtain rfl : l.session = s := Option.some.inj (hl.session.symm.trans hs)
  obtain ⟨hfits, hwait | ⟨woken', hgo⟩⟩ := Shared.host_remote (t := t) hs hr
  · rw [hwait] at hw
    cases reply <;> cases hw
  rw [hgo] at hw
  obtain ⟨rfl, rfl⟩ := Shared.turn_inj hw
  refine k.work hwork hl (.hear hu hm ((hl.flying t w st hu).2 hf) hfits) (Lane.put_self ..) rfl rfl
    rfl rfl rfl rfl rfl ?_ (k.aloft.1.erase t) (fun u hut => ?_) ?_
  · show Job.IsAt _ _ _ (l.told t) _
    rw [htold]
    exact Job.isAt_going hnext
  · exact List.mem_erase_of_ne hut
  · simp [Lane.put, k.aloft.1.mem_erase_iff]

theorem Kept.yield (k : Kept c past S) {result : Except PoolError Yield}
    (ht : S.HasJob t (.done result)) (hn : S.works[t]? = some (n, w)) :
    Kept c (past ++ [.work n t (.yielded result)])
      { S with pool := S.pool.withJob t (.finished result) S.pool.shared } := by
  obtain ⟨n', w', l, st, hwork, hl, hu, rfl, htold⟩ := k.job ht
  rw [hn] at hwork
  cases hwork
  refine k.work hn hl (.yield hu htold) hu rfl rfl rfl rfl ?_ rfl rfl ⟨rfl, by simp⟩ k.aloft.1
    (fun _ _ => Iff.rfl) (hl.flying t w _ hu)
  exact (set_self hl.session).symm

/-! ### Steps of callers -/

theorem Customary.come {gs : List Ledger} {callers : List (Caller Response)} {count : Nat}
    (h : Customary c gs callers count) (order : Order) :
    Customary c (gs ++ [({} : Ledger)]) (callers ++ [order.program c]) count where
  counted := by simp [h.counted]
  abides i p g hp hg := by
    rcases Nat.lt_trichotomy i callers.length with hi | hi | hi
    · rw [List.getElem?_append_left hi] at hp
      rw [List.getElem?_append_left (h.counted ▸ hi)] at hg
      exact h.abides i p g hp hg
    · subst hi
      rw [List.getElem?_concat_length, Option.some.injEq] at hp
      rw [h.counted, List.getElem?_concat_length, Option.some.injEq] at hg
      exact hp ▸ hg ▸ order.abides c
    · rw [List.getElem?_eq_none (by simp; omega)] at hp
      cases hp
  known g hg n hn := by
    rcases List.mem_append.1 hg with hg | hg
    · exact h.known g hg n hn
    · rw [List.mem_singleton.1 hg] at hn
      cases hn

/-- What a caller may ask for, and how it goes on. -/
theorem Customary.ask {gs : List Ledger} {callers : List (Caller Response)} {count i : Nat}
    {a : Ask} {next : a.Reply → Caller Response} (h : Customary c gs callers count) (count' : Nat)
    (hi : callers[i]? = some (Program.act a next)) :
    ∃ g, gs[i]? = some g ∧ a.Allowed c g.known g.owed ∧ ∀ reply : a.Reply, count ≤ count' →
      (∀ n ∈ (g.after a reply).known ++ (g.after a reply).owed, n ∈ g.known ++ g.owed ∨ n < count') →
      Customary c (gs.modify i fun g => g.after a reply) (callers.set i (next reply)) count' := by
  have hlt : i < gs.length := h.counted ▸ (List.getElem?_eq_some_iff.1 hi).1
  refine ⟨gs[i], List.getElem?_eq_getElem hlt, ?_, fun reply hcount hnew => ⟨?_, ?_, ?_⟩⟩
  · exact (h.abides i _ _ hi (List.getElem?_eq_getElem hlt)).1
  · simp [h.counted]
  · intro j p g hp hg
    by_cases hji : j = i
    · subst hji
      rw [List.getElem?_set_self (h.counted ▸ hlt), Option.some.injEq] at hp
      rw [List.getElem?_modify_eq, List.getElem?_eq_getElem hlt, Option.map_eq_map, Option.map_some,
        Option.some.injEq] at hg
      subst hp hg
      exact (h.abides j _ _ hi (List.getElem?_eq_getElem hlt)).2 reply
    · rw [List.getElem?_set_ne (Ne.symm hji)] at hp
      rw [List.getElem?_modify_ne _ _ (Ne.symm hji)] at hg
      exact h.abides j p g hp hg
  · intro g hg n hn
    obtain ⟨j, hj⟩ := List.mem_iff_getElem?.1 hg
    by_cases hji : j = i
    · subst hji
      rw [List.getElem?_modify_eq, List.getElem?_eq_getElem hlt, Option.map_eq_map, Option.map_some,
        Option.some.injEq] at hj
      subst hj
      rcases hnew n hn with hn | hn
      · exact Nat.lt_of_lt_of_le (h.known _ (List.getElem_mem hlt) n hn) hcount
      · exact hn
    · rw [List.getElem?_modify_ne _ _ (Ne.symm hji)] at hj
      exact Nat.lt_of_lt_of_le (h.known g (List.mem_of_getElem? hj) n hn) hcount

/-- A step that concerns no session. The worker may end in it, and drop its jobs. -/
theorem Kept.aside (k : Kept c past S) (hnote : ∀ n, e.note? n = none)
    (hcatalog : S'.pool.catalog = S.pool.catalog)
    (hregistry : ∀ entry ∈ S'.pool.registry, entry ∈ S.pool.registry)
    (hsessions : S'.sessions = S.sessions) (hworks : S'.works = S.works) (hflying : S'.flying = S.flying)
    (hlen : S'.jobs.length = S.jobs.length)
    (hjobs : ∀ (t : Nat) (job : Job (Deed κ) Deed.Reply Yield), S.jobs[t]? = some job →
      ∃ job', S'.jobs[t]? = some job' ∧ ∀ n st told, job.IsAt n S.pool.worker.ended st told →
        job'.IsAt n S'.pool.worker.ended st told)
    (hcallers : Customary c (ledgers (past ++ [e])) S'.callers S.sessions.length) :
    Kept c (past ++ [e]) S' := by
  have hnotes : ∀ n, notes n (past ++ [e]) = notes n past := fun n => notes_quiet past (hnote n)
  refine
    { catalog := hcatalog.trans k.catalog
      lanes := fun n hn => ?_
      silent := fun n hn => by rw [hnotes]; exact k.silent n (hsessions ▸ hn)
      tickets := by rw [hworks, hlen]; exact k.tickets
      placed := fun t n w ht => by rw [hsessions]; exact k.placed t n w (hworks ▸ ht)
      aloft := by rw [hflying, hworks]; exact k.aloft
      named := fun id n hn => by rw [hsessions]; exact k.named id n (hregistry _ hn)
      callers := by rw [hsessions]; exact hcallers }
  obtain ⟨l, hl⟩ := k.lanes n (hsessions ▸ hn)
  rw [hnotes]
  refine ⟨l, hl.stay (by rw [hsessions]) (fun _ _ => by rw [hworks]) ?_ fun _ _ _ => by rw [hflying]⟩
  intro t w job st told _ hj hat
  obtain ⟨job', hj', hat'⟩ := hjobs t job hj
  exact ⟨job', hj', hat' n st told hat⟩

/-- A caller makes a session. -/
theorem Kept.made (k : Kept c past S) (hnote : ∀ n, e.note? n = none) {id : String}
    {locator : Locator} (hcatalog : S'.pool.catalog = S.pool.catalog)
    (hregistry : S'.pool.registry = S.pool.registry.insert id S.sessions.length)
    (hsessions : S'.sessions = S.sessions ++ [{ id := id, locator := locator }])
    (hworks : S'.works = S.works) (hflying : S'.flying = S.flying)
    (hworker : S'.pool.worker = S.pool.worker)
    (hcallers : Customary c (ledgers (past ++ [e])) S'.callers (S.sessions.length + 1)) :
    Kept c (past ++ [e]) S' := by
  have hnotes : ∀ n, notes n (past ++ [e]) = notes n past := fun n => notes_quiet past (hnote n)
  have hlen : S'.sessions.length = S.sessions.length + 1 := by simp [hsessions]
  have hold : ∀ n, n < S.sessions.length → S'.sessions[n]? = S.sessions[n]? := by
    intro n hn
    rw [hsessions, List.getElem?_append_left hn]
  have hjobs : S'.jobs = S.jobs := congrArg Worker.jobs hworker
  refine
    { catalog := hcatalog.trans k.catalog
      lanes := fun n hn => ?_
      silent := fun n hn => by rw [hnotes]; exact k.silent n (by omega)
      tickets := by rw [hworks, hjobs]; exact k.tickets
      placed := fun t n w ht => by
        have := k.placed t n w (hworks ▸ ht)
        omega
      aloft := by rw [hflying, hworks]; exact k.aloft
      named := fun id' n hn => ?_
      callers := by rw [hlen]; exact hcallers }
  · rw [hnotes]
    rcases Nat.lt_or_ge n S.sessions.length with hlt | hge
    · obtain ⟨l, hl⟩ := k.lanes n hlt
      refine ⟨l, hl.stay (hold n hlt) (fun _ _ => by rw [hworks]) (fun t w job st told _ hj hat => ?_)
        fun _ _ _ => by rw [hflying]⟩
      exact ⟨job, hjobs ▸ hj, hworker ▸ hat⟩
    · obtain rfl : n = S.sessions.length := by omega
      refine ⟨{ session := { id := id, locator := locator } }, ⟨?_, ?_, fun t w => ?_, ?_, ?_⟩⟩
      · rw [hsessions, List.getElem?_concat_length]
      · rw [k.silent _ (Nat.le_refl _)]
        exact .refl
      · constructor
        · intro ht
          exact absurd (k.placed t _ w (hworks ▸ ht)) (Nat.lt_irrefl _)
        · rintro ⟨st, ht⟩
          cases ht
      · exact fun _ _ _ h => (nomatch h)
      · exact fun _ _ _ h => (nomatch h)
  · rw [hregistry] at hn
    rcases Table.mem_insert_cases hn with h | h
    · cases h
      exact ⟨_, by rw [hsessions, List.getElem?_concat_length], rfl⟩
    · obtain ⟨s, hs, hid⟩ := k.named id' n h
      exact ⟨s, (hold n (List.getElem?_eq_some_iff.1 hs).1).trans hs, hid⟩

/-- A caller marks a session ready. -/
theorem Kept.marked (k : Kept c past S) (hnote : ∀ n, e.note? n = none) {id : String} {n : Nat}
    {s : Session κ} (hmarks : Marks c id) (hn : (id, n) ∈ S.pool.registry)
    (hs : S.sessions[n]? = some s) (hpool : S'.pool = { S.pool with
      shared := S.pool.shared.put n { s with ready := true } })
    (hworks : S'.works = S.works) (hflying : S'.flying = S.flying)
    (hcallers : Customary c (ledgers (past ++ [e])) S'.callers S.sessions.length) :
    Kept c (past ++ [e]) S' := by
  have hnotes : ∀ n, notes n (past ++ [e]) = notes n past := fun n => notes_quiet past (hnote n)
  have hsessions : S'.sessions = S.sessions.set n { s with ready := true } := by
    rw [Scene.sessions, hpool]
    rfl
  have hlen : S'.sessions.length = S.sessions.length := by rw [hsessions, List.length_set]
  have hworker : S'.pool.worker = S.pool.worker := by rw [hpool]
  have hjobs : S'.jobs = S.jobs := congrArg Worker.jobs hworker
  have hlt : n < S.sessions.length := (List.getElem?_eq_some_iff.1 hs).1
  obtain ⟨s₀, hs₀, hid⟩ := k.named id n hn
  obtain rfl : s = s₀ := Option.some.inj (hs.symm.trans hs₀)
  refine
    { catalog := by rw [hpool]; exact k.catalog
      lanes := fun m hm => ?_
      silent := fun m hm => by rw [hnotes]; exact k.silent m (hlen ▸ hm)
      tickets := by rw [hworks, hjobs]; exact k.tickets
      placed := fun t m w ht => by rw [hlen]; exact k.placed t m w (hworks ▸ ht)
      aloft := by rw [hflying, hworks]; exact k.aloft
      named := fun id' m hm => ?_
      callers := by rw [hlen]; exact hcallers }
  · rw [hnotes]
    obtain ⟨l, hl⟩ := k.lanes m (hlen ▸ hm)
    by_cases hmn : m = n
    · subst hmn
      obtain rfl : l.session = s := Option.some.inj (hl.session.symm.trans hs)
      refine ⟨{ l with session := { l.session with ready := true } }, ⟨?_, ?_, ?_, ?_, ?_⟩⟩
      · rw [hsessions, List.getElem?_set_self hlt]
      · exact hl.run.mark (hid ▸ hmarks)
      · rw [hworks]; exact hl.works
      · rw [hjobs, hworker]; exact hl.jobs
      · rw [hflying]; exact hl.flying
    · refine ⟨l, hl.stay ?_ (fun _ _ => by rw [hworks]) (fun t w job st told _ hj hat => ?_)
        fun _ _ _ => by rw [hflying]⟩
      · rw [hsessions, List.getElem?_set_ne (Ne.symm hmn)]
      · exact ⟨job, hjobs ▸ hj, hworker ▸ hat⟩
  · rw [hpool] at hm
    obtain ⟨s', hs', hid'⟩ := k.named id' m hm
    by_cases hmn : m = n
    · subst hmn
      rw [hs, Option.some.injEq] at hs'
      exact ⟨{ s with ready := true }, by rw [hsessions, List.getElem?_set_self hlt],
        (congrArg Session.id hs').trans hid'⟩
    · exact ⟨s', by rw [hsessions, List.getElem?_set_ne (Ne.symm hmn)]; exact hs', hid'⟩

/-- A caller sends work. -/
theorem Kept.sent (k : Kept c past S) {i : Nat} {callers : List (Caller Response)}
    {inbox : List Message} (hplain : w.IsPlain) (hn : n < S.sessions.length)
    (hcallers : Customary c (ledgers (past ++ [Event.asked i (.submit n w) (.ok S.jobs.length)])) callers
      S.sessions.length) :
    Kept c (past ++ [.asked i (.submit n w) (.ok S.jobs.length)])
      { S with
        pool := { S.pool with worker := { S.pool.worker with
          jobs := S.jobs ++ [.pending (Errand.ofWork n w)], inbox := inbox } }
        callers := callers
        works := S.works ++ [(n, w)] } := by
  have hold : ∀ t, t < S.works.length → (S.works ++ [(n, w)])[t]? = S.works[t]? := fun t ht =>
    List.getElem?_append_left ht
  have hjob : ∀ (t : Nat) (job : Job (Deed κ) Deed.Reply Yield), S.jobs[t]? = some job →
      (S.jobs ++ [.pending (Errand.ofWork n w)])[t]? = some job := by
    intro t job hj
    rw [List.getElem?_append_left (List.getElem?_eq_some_iff.1 hj).1, hj]
  refine
    { catalog := k.catalog
      lanes := fun m hm => ?_
      silent := fun m hm => ?_
      tickets := ?_
      placed := fun t m v ht => ?_
      aloft := ⟨k.aloft.1, fun t ht => by
        rw [List.length_append]
        exact Nat.lt_add_right _ (k.aloft.2 t ht)⟩
      named := k.named
      callers := hcallers }
  · obtain ⟨l, hl⟩ := k.lanes m hm
    have hunits : ∀ u x, l.units u = some x → u < S.jobs.length := by
      intro u ⟨v, st⟩ hu
      rw [← k.tickets]
      exact (List.getElem?_eq_some_iff.1 ((hl.works u v).2 ⟨st, hu⟩)).1
    by_cases hmn : n = m
    · subst hmn
      have hnone := Lane.units_of_arrive hunits
      refine ⟨l.put S.jobs.length w (.waiting w),
        ⟨hl.session, ?_, fun t v => ?_, fun t v st hu => ?_, fun t v st hu => ?_⟩⟩
      · rw [notes_append]
        simp only [Event.note?, if_true, Option.toList]
        exact hl.run.step (.arrive hplain hunits)
      · by_cases htt : t = S.jobs.length
        · subst htt
          rw [Lane.put_self, ← k.tickets, List.getElem?_concat_length, Option.some.injEq, Prod.mk.injEq]
          constructor
          · rintro ⟨-, rfl⟩; exact ⟨_, rfl⟩
          · rintro ⟨st, h⟩
            rw [Option.some.injEq, Prod.mk.injEq] at h
            exact ⟨rfl, h.1⟩
        · rw [Lane.put_of_ne l htt, ← hl.works]
          have htt : t ≠ S.works.length := k.tickets ▸ htt
          rcases Nat.lt_or_ge t S.works.length with hlt | hge
          · rw [hold t hlt]
          · rw [List.getElem?_eq_none (by simp; omega), List.getElem?_eq_none hge]
      · rcases Lane.put_cases hu with ⟨rfl, rfl, rfl⟩ | ⟨hne, hu⟩
        · refine ⟨.pending (Errand.ofWork n v), ?_, Errand.ofWork_follows n v, ?_⟩
          · exact List.getElem?_concat_length
          · rw [Bool.eq_false_iff]
            intro htold
            obtain ⟨v', result, hv⟩ := hl.run.sound.told _ htold
            rw [hnone] at hv
            cases hv
        · obtain ⟨job, hj, hat⟩ := hl.jobs t v st hu
          exact ⟨job, hjob t job hj, hat⟩
      · rcases Lane.put_cases hu with ⟨rfl, rfl, rfl⟩ | ⟨hne, hu⟩
        · constructor
          · intro hf
            obtain ⟨v', st', m, hv, -⟩ := hl.run.sound.flight _ hf
            rw [hnone] at hv
            cases hv
          · intro hf
            exact absurd (k.aloft.2 _ hf) (by rw [k.tickets]; exact Nat.lt_irrefl _)
        · exact hl.flying t v st hu
    · rw [notes_quiet past (by simp [Event.note?, hmn])]
      refine ⟨l, hl.stay rfl (fun t v => ?_) (fun t v job st told _ hj hat => ⟨job, hjob t job hj, hat⟩)
        fun _ _ _ => Iff.rfl⟩
      · rcases Nat.lt_trichotomy t S.works.length with hlt | rfl | hgt
        · rw [hold t hlt]
        · rw [List.getElem?_concat_length, List.getElem?_eq_none (Nat.le_refl _)]
          simp [hmn]
        · rw [List.getElem?_eq_none (by simp; omega), List.getElem?_eq_none (by omega)]
  · have hmn : n ≠ m := by rintro rfl; exact absurd hn (Nat.not_lt.2 hm)
    rw [notes_quiet past (by simp [Event.note?, hmn])]
    exact k.silent m hm
  · simp [Scene.jobs, k.tickets]
  · rcases List.mem_append.1 (List.mem_of_getElem? ht) with h | h
    · obtain ⟨t', ht'⟩ := List.mem_iff_getElem?.1 h
      exact k.placed t' m v ht'
    · cases List.mem_singleton.1 h
      exact hn

theorem mem_registry_of_get? {id : String} {t : Table Nat} (h : Table.get? id t = some n) :
    (id, n) ∈ t := by
  induction t with
  | nil => cases h
  | cons entry t ih =>
    obtain ⟨id', n'⟩ := entry
    rw [Table.get?] at h
    split at h
    · rename_i hid
      cases h
      exact hid ▸ List.mem_cons_self ..
    · exact List.mem_cons_of_mem _ (ih h)

/-- Work is sent on sessions that the sender knows or owes a release, and the sender knows no more then. -/
theorem known_of_allowed {g : Ledger} (h : (Ask.submit n w).Allowed c g.known g.owed) :
    n ∈ g.known ++ g.owed := by
  cases w with
  | release => exact List.mem_append_right _ (List.mem_of_mem_head? h)
  | call _ _ | load _ _ _ => exact List.mem_append_left _ h.1

theorem plain_of_allowed {g : Ledger} (h : (Ask.submit n w).Allowed c g.known g.owed) : w.IsPlain := by
  cases w with
  | release => exact trivial
  | call _ _ | load _ _ _ => exact h.2

theorem sent_known {g : Ledger} {reply : (Ask.submit n w).Reply} {m : Nat}
    (h : m ∈ (g.after (.submit n w) reply).known ++ (g.after (.submit n w) reply).owed) :
    m ∈ g.known ++ g.owed := by
  cases w with
  | release =>
    rcases List.mem_append.1 h with h | h
    · exact List.mem_append_left _ h
    · exact List.mem_append_right _ (List.mem_of_mem_tail h)
  | call _ _ | load _ _ _ => exact h

theorem Kept.ask (k : Kept c past S) {i : Nat} {a : Ask} {next : a.Reply → Caller Response}
    {reply : a.Reply} {p : Pool ρ κ} {woken : List Nat} (hi : S.callers[i]? = some (Program.act a next))
    (ha : S.pool.answer a = .went reply p woken) :
    Kept c (past ++ [.asked i a reply])
      { S with pool := p, callers := S.callers.set i (next reply), works := S.works ++ a.sends reply } := by
  obtain ⟨g, hg, hallowed, hnext⟩ := k.callers.ask p.shared.sessions.length hi
  -- Most actions leave the sessions and the jobs alone.
  have haside : (∀ n, (Event.asked i a reply : Event κ).note? n = none) → a.sends reply = [] →
      p.catalog = S.pool.catalog → (∀ entry ∈ p.registry, entry ∈ S.pool.registry) →
      p.shared.sessions = S.sessions → p.worker.jobs = S.jobs → p.worker.ended = S.pool.worker.ended →
      (∀ n ∈ (g.after a reply).known ++ (g.after a reply).owed,
        n ∈ g.known ++ g.owed ∨ n < S.sessions.length) →
      Kept c (past ++ [.asked i a reply])
        { S with pool := p, callers := S.callers.set i (next reply), works := S.works ++ a.sends reply } := by
    intro hnote hsends hcatalog hregistry hsessions hjobs hended hnew
    refine k.aside hnote hcatalog hregistry hsessions (by simp [hsends]) rfl (congrArg _ hjobs)
      (fun t job hj => ⟨job, (congrArg (·[t]?) hjobs).trans hj, fun n st told hat => ?_⟩) ?_
    · exact hended ▸ hat
    · rw [ledgers_append, ← hsessions]
      exact hnext reply (Nat.le_of_eq (congrArg _ hsessions.symm)) (hsessions.symm ▸ hnew)
  cases Pool.answered ha with
  | found hget =>
    refine haside (fun _ => rfl) rfl rfl (fun _ h => h) rfl rfl rfl fun m hm => ?_
    rcases List.mem_cons.1 hm with rfl | h
    · obtain ⟨s, hs, -⟩ := k.named _ m (mem_registry_of_get? hget)
      exact .inr (List.getElem?_eq_some_iff.1 hs).1
    · exact .inl h
  | unknown _ _ => exact haside (fun _ => rfl) rfl rfl (fun _ h => h) rfl rfl rfl fun _ h => .inl h
  | @made id locator _ =>
    refine k.made (fun _ => rfl) rfl rfl rfl (List.append_nil _) rfl rfl ?_
    rw [ledgers_append]
    have hlen : (S.sessions ++ [({ id := id, locator := locator } : Session κ)]).length =
        S.sessions.length + 1 := by simp
    rw [← hlen]
    refine hnext _ (by simp) fun m hm => ?_
    rcases List.mem_cons.1 hm with rfl | h
    · exact .inr (by simp)
    · exact .inl h
  | unmarked _ => exact haside (fun _ => rfl) rfl rfl (fun _ h => h) rfl rfl rfl fun _ h => .inl h
  | @marked id n s hget hs =>
    refine k.marked (fun _ => rfl) hallowed (mem_registry_of_get? hget) hs rfl (List.append_nil _) rfl ?_
    rw [ledgers_append]
    have hlen : (S.pool.shared.put n { s with ready := true }).sessions.length = S.sessions.length :=
      List.length_set
    rw [← hlen]
    exact hnext _ (Nat.le_of_eq hlen.symm) fun _ h => .inl h
  | refused _ =>
    exact haside (fun _ => rfl) rfl rfl (fun _ h => h) rfl rfl rfl fun m hm => .inl (sent_known hm)
  | sent _ =>
    have hn := k.callers.known g (List.mem_of_getElem? hg) _ (known_of_allowed hallowed)
    refine k.sent (plain_of_allowed hallowed) hn ?_
    rw [ledgers_append]
    exact hnext _ (Nat.le_refl _) fun m hm => .inl (sent_known hm)
  | awaited _ => exact haside (fun _ => rfl) rfl rfl (fun _ h => h) rfl rfl rfl fun _ h => .inl h
  | @removed id found hget =>
    refine haside (fun _ => rfl) rfl rfl ?_ rfl rfl rfl fun n hn => ?_
    · exact fun entry h => (Table.erase_sublist id _).subset h
    · cases found with
      | none => exact .inl hn
      | some m =>
        rcases List.mem_append.1 hn with h | h
        · exact .inl (List.mem_append_left _ h)
        · rcases List.mem_cons.1 h with rfl | h
          · obtain ⟨s, hs, -⟩ := k.named id n (mem_registry_of_get? hget)
            exact .inr (List.getElem?_eq_some_iff.1 hs).1
          · exact .inl (List.mem_append_right _ h)
  | drained =>
    refine haside (fun _ => rfl) rfl rfl nofun rfl rfl rfl fun n hn => ?_
    rcases List.mem_append.1 hn with h | h
    · exact .inl (List.mem_append_left _ h)
    · rcases List.mem_append.1 h with h | h
      · obtain ⟨⟨id, m⟩, hentry, rfl⟩ := List.mem_map.1 h
        obtain ⟨s, hs, -⟩ := k.named id m hentry
        exact .inr (List.getElem?_eq_some_iff.1 hs).1
      · exact .inl (List.mem_append_right _ h)
  | ids => exact haside (fun _ => rfl) rfl rfl (fun _ h => h) rfl rfl rfl fun _ h => .inl h
  | cleared => exact haside (fun _ => rfl) rfl rfl (fun _ h => h) rfl rfl rfl fun _ h => .inl h
  | stopped hjobs hended =>
    exact haside (fun _ => rfl) rfl rfl (fun _ h => h) rfl hjobs hended fun _ h => .inl h
  | gone _ => exact haside (fun _ => rfl) rfl rfl (fun _ h => h) rfl rfl rfl fun _ h => .inl h

/-- A caller that stops waiting changes nothing. -/
theorem Kept.giveUp (k : Kept c past S) {i : Nat} {a : Ask} {next : a.Reply → Caller Response}
    {reply : a.Reply} {p : Pool ρ κ} {woken : List Nat} (hi : S.callers[i]? = some (Program.act a next))
    (hw : Pool.waits a = true) (ha : S.pool.giveUp a = .went reply p woken) :
    Kept c (past ++ [.gaveUp i a]) { S with pool := p, callers := S.callers.set i (next reply) } := by
  have hp : p = S.pool := Pool.eq_of_giveUp hw ha
  subst hp
  obtain ⟨g, hg, -, hnext⟩ := k.callers.ask S.sessions.length hi
  refine k.aside (fun _ => rfl) rfl (fun _ h => h) rfl rfl rfl rfl
    (fun t job hj => ⟨job, hj, fun _ _ _ hat => hat⟩) ?_
  rw [ledgers_append]
  have hsame : (ledgers past).modify i (fun g => g.after a reply) = ledgers past := by
    have : (fun g : Ledger => g.after a reply) = id := by
      funext g
      cases a with
      | await _ | gone _ => rfl
      | _ => cases hw
    rw [this, List.modify_id]
  have hnext := hnext reply (Nat.le_refl _) fun n hn => .inl ?_
  · rw [hsame] at hnext
    exact hnext
  · cases a with
    | await _ | gone _ => exact hn
    | _ => cases hw

theorem Kept.step (k : Kept c past S) (h : Step r S e S') : Kept c (past ++ [e]) S' := by
  have hsame : ∀ (t : Nat) (job : Job (Deed κ) Deed.Reply Yield), S.jobs[t]? = some job →
      ∃ job', S.jobs[t]? = some job' ∧ ∀ n st told, job.IsAt n S.pool.worker.ended st told →
        job'.IsAt n S.pool.worker.ended st told :=
    fun t job hj => ⟨job, hj, fun _ _ _ hat => hat⟩
  have hcallers : ∀ e : Event κ, e.enter (ledgers past) = ledgers past →
      Customary c (ledgers (past ++ [e])) S.callers S.sessions.length := by
    intro e he
    rw [ledgers_append, he]
    exact k.callers
  cases h with
  | come order =>
    refine k.aside (fun _ => rfl) rfl (fun _ h => h) rfl rfl rfl rfl hsame ?_
    rw [ledgers_append, k.catalog]
    exact k.callers.come order
  | ask hi ha => exact k.ask hi ha
  | giveUp hi hw ha => exact k.giveUp hi hw ha
  | chat session user assistant =>
    exact k.aside (fun _ => rfl) rfl (fun _ h => h) rfl rfl rfl rfl hsame (hcallers _ rfl)
  | @read m rest hm =>
    cases m with
    | run ticket =>
      refine k.aside (fun _ => rfl) rfl (fun _ h => h) rfl rfl rfl ?_ ?_ (hcallers _ rfl) <;>
        (simp only [Scene.jobs, Worker.take]; split)
      all_goals first | rfl | exact hsame
    | stop =>
      refine k.aside (fun _ => rfl) rfl (fun _ h => h) rfl rfl rfl ?_ (fun t job hj => ?_) (hcallers _ rfl)
      · simp [Scene.jobs, Worker.take, Worker.finish]
      · refine ⟨job.drop, ?_, fun n st told hat => ?_⟩
        · simp [Scene.jobs, Worker.take, Worker.finish] at hj ⊢
          exact ⟨job, hj, rfl⟩
        · cases job with
          | finished result => exact hat
          | pending p | dropped => exact fun h => (nomatch h)
  | queue ht hd hw => exact k.queue ht hd hw
  | move ht hd hw => exact k.move ht hd hw
  | send ht hd hf => exact k.send ht hd hf
  | hear ht hf hs hr hw => exact k.hear ht hf hs hr (some _) hw
  | die ht hf hs hr hw => exact k.hear ht hf hs hr none hw
  | yield ht hn => exact k.yield ht hn
  | world remote =>
    exact k.aside (fun _ => rfl) rfl (fun _ h => h) rfl rfl rfl rfl hsame (hcallers _ rfl)
  | arrange turns roused stalled holder left looks =>
    exact k.aside (fun _ => rfl) rfl (fun _ h => h) rfl rfl rfl rfl hsame (hcallers _ rfl)

theorem Run.kept (run : Run r c o remote past S) : Kept c past S := by
  induction run with
  | start => exact .empty c o remote
  | step _ h ih => exact ih.step h

/-- Whatever the servers do, a job has a result or gets it as soon as it goes on, without asking a
    server; only the end of the worker can be before that. -/
def Gives (S : Scene ρ κ) (t : Nat) (result : Except PoolError Yield) : Prop :=
  match S.jobs[t]? with
  | some (.finished result') => result' = result
  | some (.pending p) => ∀ r : Remote ρ κ,
    (p.advance (Shared.host r t) S.pool.shared).progress = .finished result ∧
      (p.advance (Shared.host r t) S.pool.shared).state.remote = S.pool.shared.remote
  | some .dropped => S.pool.worker.ended = true
  | none => False

theorem HasLane.gives {notes : List (Note κ)} (h : S.HasLane c n notes l) (hu : l.units t = some (w, st))
    (hdead : st ≠ .dead) {result : Except PoolError Yield}
    (hended : ∀ result', st = .ended result' → result' = result)
    (hpending : ∀ (r : Remote ρ κ) p, Errand.Follows n p st →
      (p.advance (Shared.host r t) S.pool.shared).progress = .finished result ∧
        (p.advance (Shared.host r t) S.pool.shared).state.remote = S.pool.shared.remote) :
    S.Gives t result := by
  obtain ⟨job, hjob, hat⟩ := h.jobs t w st hu
  rw [Gives, hjob]
  cases job with
  | pending p => exact fun r => hpending r p hat.1
  | finished result' => exact hended result' hat.1
  | dropped =>
    show S.pool.worker.ended = true
    rw [← Bool.not_eq_false]
    exact fun hends => hdead (hat hends)

end Scene
end SessionPool
