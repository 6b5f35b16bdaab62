import SessionPool.Proofs.Client
import SessionPool.Proofs.LoadOnce

/-! Lifecycles: sessions from when they are made to when their clients are closed. A session is in the
    registry or was taken out of it by exactly one caller, who owes it a release until it has sent one;
    all sessions are accounted for in that way in every state of a run. With what a lane says of its
    client this gives `Scene.Run.lifecycle`: when nobody has anything left to do and the registry is
    empty, every client that was connected is closed. -/

namespace SessionPool

/-! ### The books -/

namespace Event
variable {κ : Type}

/-- The sessions that an event takes out of the registry. -/
def removed : Event κ → List Nat
  | .asked _ (.remove _) (some n) => [n]
  | .asked _ .drain t => t.map (·.2)
  | _ => []

/-- The sessions that an event sends releases of. -/
def released : Event κ → List Nat
  | .asked _ (.submit n .release) (.ok _) => [n]
  | _ => []

end Event

/-- The sessions that were taken out of the registry. -/
def removals {κ : Type} (past : List (Event κ)) : List Nat := past.flatMap Event.removed

/-- The sessions that releases were sent of. -/
def releases {κ : Type} (past : List (Event κ)) : List Nat := past.flatMap Event.released

/-- The sessions that callers owe a release. -/
def owing {κ : Type} (past : List (Event κ)) : List Nat := (ledgers past).flatMap Ledger.owed

/-- Every session is in the registry or was taken out of it once, and whoever took it out owes it a
    release or has sent one. -/
structure Scene.Accounted {ρ κ : Type} (past : List (Event κ)) (S : Scene ρ κ) : Prop where
  registered : ∀ n, (S.pool.registry.map (·.2)).count n + (removals past).count n =
    if n < S.sessions.length then 1 else 0
  covered : ∀ n, (releases past).count n + (owing past).count n ≤ (removals past).count n
  exact : S.pool.worker.ended = false → ∀ n,
    (releases past).count n + (owing past).count n = (removals past).count n

theorem count_insert {id : String} {n m : Nat} : ∀ {t : Table Nat}, Table.get? id t = none →
    ((t.insert id n).map (·.2)).count m = (t.map (·.2)).count m + if m = n then 1 else 0
  | [], _ => by
    by_cases h : m = n
    · simp [Table.insert, h]
    · simp [Table.insert, h, Ne.symm h]
  | (id', n') :: t, hget => by
    rw [Table.get?] at hget
    split at hget
    · cases hget
    rename_i hne
    rw [Table.insert, if_neg hne]
    split
    · rw [List.map_cons, List.count_cons]
      by_cases h : m = n
      · simp [h]
      · simp [h, Ne.symm h]
    · rw [List.map_cons, List.map_cons, List.count_cons, List.count_cons, count_insert hget]
      omega

theorem count_erase {id : String} {n m : Nat} : ∀ {t : Table Nat}, Table.get? id t = some n →
    ((t.erase id).map (·.2)).count m + (if m = n then 1 else 0) = (t.map (·.2)).count m
  | (id', n') :: t, hget => by
    rw [Table.get?] at hget
    split at hget
    · rename_i heq
      cases hget
      rw [Table.erase, if_pos heq, List.map_cons, List.count_cons]
      by_cases h : m = n
      · simp [h]
      · simp [h, Ne.symm h]
    · rename_i hne
      rw [Table.erase, if_neg hne, List.map_cons, List.map_cons, List.count_cons, List.count_cons,
        ← count_erase hget]
      omega

/-- What all owe changes by what one owes. -/
theorem count_owed_modify {f : Ledger → Ledger} {g : Ledger} (m : Nat) :
    ∀ {gs : List Ledger} {i : Nat}, gs[i]? = some g →
      ((gs.modify i f).flatMap Ledger.owed).count m + g.owed.count m =
        (gs.flatMap Ledger.owed).count m + (f g).owed.count m
  | g' :: gs, 0, h => by
    cases h
    simp only [List.modify_cons, if_pos, List.flatMap_cons, List.count_append]
    omega
  | g' :: gs, i + 1, h => by
    have h : gs[i]? = some g := h
    have ih := count_owed_modify (f := f) m h
    simp only [List.modify_succ_cons, List.flatMap_cons, List.count_append]
    omega

namespace Scene
variable {ρ κ : Type} {r : Remote ρ κ} {c : Catalog} {o : Options} {remote : ρ} {past : List (Event κ)}
  {S S' : Scene ρ κ} {e : Event κ}

/-- The worker does not come back from its end. -/
theorem Step.running (h : Step r S e S') (hend : S'.pool.worker.ended = false) :
    S.pool.worker.ended = false := by
  cases h with
  | ask hi ha =>
    cases Pool.answered ha with
    | stopped _ hended => exact hended.symm.trans hend
    | _ => exact hend
  | giveUp hi hw ha =>
    obtain rfl := Pool.eq_of_giveUp hw ha
    exact hend
  | @read m rest hm =>
    cases m with
    | run t =>
      simp only [Worker.take] at hend
      split at hend <;> exact hend
    | stop => cases hend
  | _ => exact hend

theorem removals_append (past : List (Event κ)) (e : Event κ) :
    removals (past ++ [e]) = removals past ++ e.removed := by
  rw [removals, List.flatMap_append, List.flatMap_singleton]
  rfl

theorem releases_append (past : List (Event κ)) (e : Event κ) :
    releases (past ++ [e]) = releases past ++ e.released := by
  rw [releases, List.flatMap_append, List.flatMap_singleton]
  rfl

theorem owing_append (past : List (Event κ)) (e : Event κ) :
    owing (past ++ [e]) = (e.enter (ledgers past)).flatMap Ledger.owed := by
  rw [owing, ledgers_append]

/-- A step that is booked: who takes sessions out of the registry owes them, and who sends a release owes it
    no more. The books are exact as long as the worker runs. -/
theorem Accounted.booked (h : Accounted past S) {owed owed' : List Nat}
    (hregistered : ∀ m, (S'.pool.registry.map (·.2)).count m + e.removed.count m +
      (if m < S.sessions.length then 1 else 0) =
        (S.pool.registry.map (·.2)).count m + if m < S'.sessions.length then 1 else 0)
    (howing : ∀ m, (owing (past ++ [e])).count m + owed.count m = (owing past).count m + owed'.count m)
    (hcovered : ∀ m, e.released.count m + owed'.count m ≤ e.removed.count m + owed.count m)
    (hexact : S'.pool.worker.ended = false → S.pool.worker.ended = false ∧
      ∀ m, e.released.count m + owed'.count m = e.removed.count m + owed.count m) :
    Accounted (past ++ [e]) S' := by
  refine ⟨fun m => ?_, fun m => ?_, fun hend m => ?_⟩
  · have hbefore := h.registered m
    have hafter := hregistered m
    rw [removals_append, List.count_append]
    omega
  · have hbefore := h.covered m
    have howing := howing m
    have hafter := hcovered m
    rw [removals_append, releases_append, List.count_append, List.count_append]
    omega
  · obtain ⟨hrunning, hexact⟩ := hexact hend
    have hbefore := h.exact hrunning m
    have howing := howing m
    have hafter := hexact m
    rw [removals_append, releases_append, List.count_append, List.count_append]
    omega

/-- A step that takes no session out of the registry and sends no release. -/
theorem Accounted.quiet (h : Accounted past S) (hremoved : e.removed = []) (hreleased : e.released = [])
    (howing : owing (past ++ [e]) = owing past) (hregistry : S'.pool.registry = S.pool.registry)
    (hlen : S'.sessions.length = S.sessions.length)
    (hrunning : S'.pool.worker.ended = false → S.pool.worker.ended = false) :
    Accounted (past ++ [e]) S' := by
  have hsame : ∀ m, (owing (past ++ [e])).count m + ([] : List Nat).count m =
      (owing past).count m + ([] : List Nat).count m := fun m => by rw [howing]
  refine h.booked (fun m => ?_) hsame (fun m => ?_) fun hend => ⟨hrunning hend, fun m => ?_⟩
  · rw [hregistry, hlen, hremoved, List.count_nil]
    omega
  · exact Nat.le_of_eq (by rw [hremoved, hreleased])
  · rw [hremoved, hreleased]

theorem Accounted.ask (h : Accounted past S) (k : Kept c past S) {i : Nat} {a : Ask}
    {next : a.Reply → Caller Response} {reply : a.Reply} {p : Pool ρ κ} {callers : List (Caller Response)}
    {works : List (Nat × Work)} (hi : S.callers[i]? = some (Program.act a next))
    (ha : S.pool.Answered a reply p) :
    Accounted (past ++ [.asked i a reply]) { S with pool := p, callers := callers, works := works } := by
  obtain ⟨g, hg, hallowed, -⟩ := k.callers.ask 0 hi
  have howing : ∀ m, (owing (past ++ [Event.asked i a reply])).count m + g.owed.count m =
      (owing past).count m + (a.owed g.owed reply).count m := by
    intro m
    rw [owing_append]
    exact count_owed_modify m hg
  -- Most actions change nothing that the books are about.
  have hquiet : (Event.asked i a reply : Event κ).removed = [] →
      (Event.asked i a reply : Event κ).released = [] → a.owed g.owed reply = g.owed →
      p.registry = S.pool.registry → p.shared.sessions.length = S.sessions.length →
      p.worker.ended = S.pool.worker.ended →
      Accounted (past ++ [.asked i a reply]) { S with pool := p, callers := callers, works := works } := by
    intro hremoved hreleased howed hregistry hlen hended
    refine h.booked (fun m => ?_) howing (fun m => ?_) fun hend => ⟨hended.symm.trans hend, fun m => ?_⟩
    · simp only [Scene.sessions, hregistry, hlen, hremoved, List.count_nil]
      omega
    · exact Nat.le_of_eq (by rw [howed, hremoved, hreleased])
    · rw [howed, hremoved, hreleased]
  cases ha with
  | made locator hnone =>
    refine h.booked (fun m => ?_) howing (fun m => Nat.le_refl _) fun hend => ⟨hend, fun m => rfl⟩
    simp only [Scene.sessions, List.length_append, List.length_singleton, count_insert hnone,
      Event.removed, List.count_nil]
    rcases Nat.lt_trichotomy m S.pool.shared.sessions.length with hlt | heq | hgt
    · rw [if_neg (by omega), if_pos hlt, if_pos (by omega)]
    · rw [if_pos heq, if_neg (by omega), if_pos (by omega)]
    · rw [if_neg (by omega), if_neg (by omega), if_neg (by omega)]
  | @removed id found hget =>
    cases found with
    | none => exact hquiet rfl rfl rfl (Table.erase_of_get?_none hget) rfl rfl
    | some n =>
      have hbalance : ∀ m, ([] : List Nat).count m + (n :: g.owed).count m =
          [n].count m + g.owed.count m := by
        intro m
        rw [List.count_cons, List.count_singleton, List.count_nil]
        omega
      refine h.booked (fun m => ?_) howing (fun m => Nat.le_of_eq (hbalance m)) fun hend => ⟨hend, hbalance⟩
      have herase := count_erase (m := m) hget
      simp only [Event.removed, List.count_singleton, beq_iff_eq, Scene.sessions,
        eq_comm (a := n)] at herase ⊢
      omega
  | drained =>
    have hbalance : ∀ m, ([] : List Nat).count m + (S.pool.registry.map (·.2) ++ g.owed).count m =
        (S.pool.registry.map (·.2)).count m + g.owed.count m := by
      intro m
      rw [List.count_append, List.count_nil, Nat.zero_add]
    refine h.booked (fun m => ?_) howing (fun m => Nat.le_of_eq (hbalance m)) fun hend => ⟨hend, hbalance⟩
    simp only [Event.removed, List.map_nil, List.count_nil, Scene.sessions]
    omega
  | @sent n w hrunning =>
    cases w with
    | call _ _ | load _ _ _ => exact hquiet rfl rfl rfl rfl rfl rfl
    | release =>
      obtain ⟨rest, howed⟩ : ∃ rest, g.owed = n :: rest := List.head?_eq_some_iff.1 hallowed
      have hbalance : ∀ m, [n].count m + g.owed.tail.count m = ([] : List Nat).count m + g.owed.count m := by
        intro m
        simp only [howed, List.tail_cons, List.count_cons, List.count_nil]
        omega
      refine h.booked (fun m => ?_) howing (fun m => Nat.le_of_eq (hbalance m)) fun hend => ⟨hend, hbalance⟩
      simp only [Event.removed, List.count_nil, Scene.sessions]
      omega
  | @refused n w hended =>
    cases w with
    | call _ _ | load _ _ _ => exact hquiet rfl rfl rfl rfl rfl rfl
    | release =>
      -- The release is not sent, and not owed any more.
      have hless : ∀ m, ([] : List Nat).count m + g.owed.tail.count m ≤
          ([] : List Nat).count m + g.owed.count m :=
        fun m => Nat.add_le_add_left ((List.tail_sublist g.owed).count_le m) _
      refine h.booked (fun m => ?_) howing hless fun hend => ?_
      · simp only [Event.removed, List.count_nil, Scene.sessions]
        omega
      · rw [show S.pool.worker.ended = false from hend] at hended
        cases hended
  | found _ | unknown _ _ | unmarked _ | awaited _ | ids | cleared | gone _ =>
    exact hquiet rfl rfl rfl rfl rfl rfl
  | marked _ _ => exact hquiet rfl rfl rfl rfl List.length_set rfl
  | stopped _ hended => exact hquiet rfl rfl rfl rfl rfl hended

theorem Accounted.step (h : Accounted past S) (k : Kept c past S) (hstep : Step r S e S') :
    Accounted (past ++ [e]) S' := by
  have hrunning := hstep.running
  cases hstep with
  | ask hi ha => exact h.ask k hi (Pool.answered ha)
  | giveUp hi hw ha =>
    obtain rfl := Pool.eq_of_giveUp hw ha
    exact h.quiet rfl rfl (owing_append past _) rfl rfl fun hend => hend
  | come order =>
    refine h.quiet rfl rfl ?_ rfl rfl fun hend => hend
    rw [owing_append, Event.enter, List.flatMap_append]
    exact List.append_nil _
  | @read m rest hm =>
    refine h.quiet rfl rfl (owing_append past _) ?_ ?_ hrunning
    · cases m with
      | run t => rfl
      | stop => rfl
    · cases m with
      | run t => rfl
      | stop => rfl
  | queue _ _ hw | move _ _ hw | hear _ _ _ _ hw | die _ _ _ _ hw =>
    refine h.quiet rfl rfl (owing_append past _) rfl ?_ fun hend => hend
    exact (congrArg (fun turn => turn.state.sessions.length) hw).symm.trans (Shared.host_length ..)
  | chat _ _ _ | send _ _ _ | yield _ _ | world _ | arrange _ _ _ _ _ _ =>
    exact h.quiet rfl rfl (owing_append past _) rfl rfl fun hend => hend

theorem Run.accounted (run : Run r c o remote past S) : Accounted past S := by
  induction run with
  | start =>
    exact ⟨fun n => (if_neg (Nat.not_lt_zero n)).symm, fun n => Nat.le_refl _, fun _ n => rfl⟩
  | step run hstep ih => exact ih.step run.kept hstep

end Scene

/-! ### All sessions together -/

/-- The session that an event is about, if it is one of some kind. -/
def Event.about? {κ : Type} (kind : Note κ → Bool) : Event κ → Option Nat
  | .work n t d => if kind (.did t d) then some n else none
  | _ => none

/-- The sessions whose connects succeeded. -/
def connections {κ : Type} (past : List (Event κ)) : List Nat :=
  past.filterMap (Event.about? Note.connects)

/-- The sessions whose clients were asked to be closed. -/
def closures {κ : Type} (past : List (Event κ)) : List Nat := past.filterMap (Event.about? Note.closes)

section
variable {κ : Type} {past : List (Event κ)} {n : Nat}

/-- What happened in a run, session by session. -/
theorem count_about (kind : Note κ → Bool) (hkind : ∀ t w, kind (.arrived t w) = false)
    (past : List (Event κ)) (n : Nat) :
    (past.filterMap (Event.about? kind)).count n = (notes n past).countP kind := by
  rw [List.count_filterMap, notes, List.countP_filterMap]
  refine List.countP_congr fun e _ => ?_
  cases e with
  | work m t d =>
    by_cases hm : m = n
    · by_cases hk : kind (.did t d) <;> simp [Event.about?, Event.note?, hm, hk]
    · by_cases hk : kind (.did t d) <;> simp [Event.about?, Event.note?, hm, hk]
  | asked i a reply =>
    have hnone : ∀ note, (Event.asked i a reply : Event κ).note? n = some note → kind note = false := by
      intro note hnote
      cases a with
      | submit m w =>
        cases reply with
        | error e => cases hnote
        | ok t =>
          simp only [Event.note?] at hnote
          split at hnote <;> cases hnote
          exact hkind t w
      | _ => cases hnote
    cases hnote : (Event.asked i a reply : Event κ).note? n with
    | none => simp [Event.about?]
    | some note => simp [Event.about?, hnone note hnote]
  | came _ | gaveUp _ _ | chatted _ _ _ | read | other => simp [Event.about?, Event.note?]

theorem mem_releases : n ∈ releases past ↔ ∃ t, .arrived t .release ∈ notes n past := by
  rw [releases, List.mem_flatMap]
  constructor
  · rintro ⟨e, he, hn⟩
    unfold Event.released at hn
    split at hn
    · rename_i i m t
      rw [List.mem_singleton] at hn
      subst hn
      exact ⟨t, List.mem_filterMap.2 ⟨_, he, by simp [Event.note?]⟩⟩
    · cases hn
  · rintro ⟨t, ht⟩
    obtain ⟨e, he, hnote⟩ := List.mem_filterMap.1 ht
    refine ⟨e, he, ?_⟩
    unfold Event.note? at hnote
    split at hnote
    · split at hnote
      · rename_i hm
        cases hnote
        exact List.mem_singleton.2 hm.symm
      · cases hnote
    · split at hnote <;> cases hnote
    · cases hnote

end

namespace Scene
variable {ρ κ : Type}

/-- Nobody has anything left to do. -/
def IsDone (S : Scene ρ κ) : Prop :=
  (∀ p ∈ S.callers, ∃ x, p = .done x) ∧ ∀ job ∈ S.jobs, ∀ p, job ≠ .pending p

/-- What holds of the lives of sessions and their clients, from what happened. -/
structure Lifecycle (S : Scene ρ κ) (past : List (Event κ)) : Prop where
  /-- The registry holds no session that is closed. -/
  live : ∀ id n, (id, n) ∈ S.pool.registry → ∃ s, S.sessions[n]? = some s ∧ s.id = id ∧ s.closed = false
  /-- A session is seen by at most one of those who close it. -/
  seen : ∀ n, (removals past).count n ≤ 1
  /-- For a session that was taken out of the registry one release is owed or was sent. -/
  released : ∀ n, (releases past).count n + (owing past).count n = (removals past).count n
  /-- When all callers are done no release is owed. -/
  paid : (∀ p ∈ S.callers, ∃ x, p = .done x) → owing past = []
  /-- At most one connect succeeds for a session. -/
  connected : ∀ n, (connections past).count n ≤ 1
  /-- The client of a session is closed at most once. -/
  closed : ∀ n, (closures past).count n ≤ (connections past).count n
  /-- After a release has taken the lock there is no connect and no call. -/
  silent : ∀ n before t after, notes n past = before ++ .did t (.moved .lock) :: after →
    .arrived t .release ∈ notes n past → ∀ u m, .did u (.sent m) ∈ after → ∃ client, m = .close client
  /-- After a release has taken the lock all other work fails, except for a load that finds the session
      ready. -/
  refused : ∀ n before t after, notes n past = before ++ .did t (.moved .lock) :: after →
    .arrived t .release ∈ notes n past → ∀ u w, .arrived u w ∈ notes n past → w ≠ .release →
    .did u (.moved .lock) ∈ after → ∃ s, S.sessions[n]? = some s ∧ (∀ m, .did u (.sent m) ∉ notes n past) ∧
      (S.Gives u (.error (.sessionClosed s.id)) ∨ (∃ state extra check, w = .load state extra check) ∧
        s.ready = true ∧ S.Gives u (.ok (.outcome .alreadyInitialized)))
  /-- When nobody has anything left to do, each session that was taken out is closed, with its client. -/
  settled : S.IsDone → ∀ n ∈ removals past, ∃ s, S.sessions[n]? = some s ∧ s.closed = true ∧
    (connections past).count n = (closures past).count n
  /-- When nobody has anything left to do and no session is left, all clients are closed. -/
  balanced : S.IsDone → S.pool.registry = [] → (connections past).length = (closures past).length

variable {r : Remote ρ κ} {c : Catalog} {o : Options} {remote : ρ} {past : List (Event κ)}
  {S : Scene ρ κ} {n t u : Nat} {v : Work} {l : Lane κ}

/-- What work gives that has found, or is to find, its session closed. -/
theorem HasLane.gives_of_refused {notes : List (Note κ)} (h : S.HasLane c n notes l)
    (hp : l.Refused l.session.id u v notes) :
    S.Gives u (.error (.sessionClosed l.session.id)) ∨ (∃ state extra check, v = .load state extra check) ∧
      l.session.ready = true ∧ S.Gives u (.ok (.outcome .alreadyInitialized)) := by
  obtain ⟨st, hu, hst⟩ := hp.stands
  have hclosed : l.session.closed = true := hp.lasts.1
  have hdead : st ≠ .dead := by rintro rfl; exact hst
  -- Work that has its result, or only has to leave with it.
  have hresult : ∀ result, st = .leaving result ∨ st = .ended result → Refusal l.session.id v result →
      S.Gives u result := by
    intro result hst' hrefusal
    refine h.gives hu hdead (fun result' hst => ?_) fun r p hfollows => ?_
    · rcases hst' with rfl | rfl <;> cases hst
      rfl
    · rcases hst' with rfl | rfl
      · exact Shared.advance_leaving h.session hfollows
      · exact Shared.advance_ended hfollows
  have hfound : ∀ result, st = .leaving result ∨ st = .ended result → Refusal l.session.id v result →
      S.Gives u (.error (.sessionClosed l.session.id)) ∨
        (∃ state extra check, v = .load state extra check) ∧ l.session.ready = true ∧
          S.Gives u (.ok (.outcome .alreadyInitialized)) := by
    intro result hst' hrefusal
    have hgives := hresult result hst' hrefusal
    rcases hrefusal with rfl | ⟨hload, rfl⟩
    · exact .inl hgives
    · refine .inr ⟨hload, h.run.ready_of_found hu ?_, hgives⟩
      rcases hst' with rfl | rfl <;> rfl
  have hlook : (Move.look : Move κ) ≠ .lock := fun h => by cases h
  cases st with
  | leaving result => exact hfound result (.inl rfl) hst
  | ended result => exact hfound result (.inr rfl) hst
  | looking p =>
    refine .inl (h.gives hu hdead (fun _ hended => by cases hended) fun r q hfollows => ?_)
    obtain ⟨rest, hrest, hprogress, hstate⟩ :=
      Shared.advance_own (r := r) (t := u) h.session hfollows rfl rfl hlook
    rw [hprogress, hstate]
    simp only [Station.after, hclosed, if_true, Station.failure_of_closed hst.2] at hrest
    exact Shared.advance_leaving (Shared.own_session h.session u .look) hrest
  | checking state extra check =>
    cases hready : l.session.ready with
    | true =>
      refine .inr ⟨⟨_, _, _, hst⟩, rfl, h.gives hu hdead (fun _ hended => by cases hended) fun r q hfollows => ?_⟩
      obtain ⟨rest, hrest, hprogress, hstate⟩ :=
        Shared.advance_own (r := r) (t := u) h.session hfollows rfl rfl hlook
      rw [hprogress, hstate]
      simp only [Station.after, hready, if_true] at hrest
      exact Shared.advance_leaving (Shared.own_session h.session u .look) hrest
    | false =>
      refine .inl (h.gives hu hdead (fun _ hended => by cases hended) fun r q hfollows => ?_)
      obtain ⟨rest, hrest, hprogress, hstate⟩ :=
        Shared.advance_own (r := r) (t := u) h.session hfollows rfl rfl hlook
      rw [hprogress, hstate]
      simp only [Station.after, hready, Bool.false_eq_true, if_false] at hrest
      have hs := Shared.own_session h.session u .look
      obtain ⟨rest', hrest', hprogress', hstate'⟩ :=
        Shared.advance_own (r := r) (t := u) hs hrest rfl rfl hlook
      rw [hprogress', hstate']
      simp only [Station.after, Session.after, hclosed, if_true] at hrest'
      exact Shared.advance_leaving (Shared.own_session hs u .look) hrest'
  | _ => exact hst.elim

/-- When nobody has anything left to do, the work of a session has ended or died. -/
theorem HasLane.over_of_done {notes : List (Note κ)} (h : S.HasLane c n notes l) (hdone : S.IsDone)
    (hend : S.pool.worker.ended = false) {w : Work} {st : Station κ} (hu : l.units t = some (w, st)) :
    (∃ result, st = .ended result) ∨ st = .dead := by
  obtain ⟨job, hjob, hat⟩ := h.jobs t w st hu
  cases job with
  | pending p => exact absurd rfl (hdone.2 _ (List.mem_of_getElem? hjob) p)
  | finished result => exact .inl ⟨result, hat.1⟩
  | dropped => exact .inr (hat hend)

/-- When nobody has anything left to do, a session that was released is closed, and so is its client. -/
theorem HasLane.closed {notes : List (Note κ)} (h : S.HasLane c n notes l) (hdone : S.IsDone)
    (hend : S.pool.worker.ended = false) (ht : .arrived t .release ∈ notes) :
    l.session.closed = true ∧ notes.countP Note.connects = notes.countP Note.closes := by
  obtain ⟨st, hu⟩ := h.run.arrived_iff.1 ht
  obtain ⟨halive, hsealed⟩ := Lane.Run.sealed h.run hu
  have hclosed : l.session.closed = true := by
    rcases h.over_of_done hdone hend hu with ⟨result, rfl⟩ | rfl
    · exact hsealed rfl
    · exact absurd rfl halive
  exact ⟨hclosed, (Lane.Run.balanced h.run).eq_of_over hclosed fun t w st hu => h.over_of_done hdone hend hu⟩

/-- While the worker runs, every session is live or was taken out once and released once, with its one
    client, whatever the callers do and in whatever order. -/
theorem Run.lifecycle (run : Run r c o remote past S) (hend : S.pool.worker.ended = false) :
    S.Lifecycle past := by
  have k := run.kept
  have a := run.accounted
  have hconnects := count_about Note.connects (fun _ _ => rfl) past
  have hcloses := count_about Note.closes (fun _ _ => rfl) past
  have hlane : ∀ n e before after, notes n past = before ++ e :: after →
      ∃ l, S.HasLane c n (notes n past) l := by
    intro n e before after hpast
    refine k.lanes n (Nat.lt_of_not_le fun hle => ?_)
    rw [k.silent n hle] at hpast
    simp at hpast
  have hpaid : (∀ p ∈ S.callers, ∃ x, p = .done x) → owing past = [] := by
    intro hdone
    rw [owing, List.flatMap_eq_nil_iff]
    intro g hg
    obtain ⟨i, hi⟩ := List.mem_iff_getElem?.1 hg
    have hlt : i < S.callers.length := k.callers.counted ▸ (List.getElem?_eq_some_iff.1 hi).1
    obtain ⟨x, hx⟩ := hdone _ (List.getElem_mem hlt)
    exact k.callers.abides i _ g (hx ▸ List.getElem?_eq_getElem hlt) hi
  have hover : S.IsDone → ∀ n ∈ removals past, ∃ l, S.HasLane c n (notes n past) l ∧
      l.session.closed = true ∧ (connections past).count n = (closures past).count n := by
    intro hdone n hn
    have hreleased : n ∈ releases past := by
      have hcount := a.exact hend n
      rw [hpaid hdone.1, List.count_nil, Nat.add_zero] at hcount
      exact List.count_pos_iff.1 (hcount ▸ List.count_pos_iff.2 hn)
    obtain ⟨t, ht⟩ := mem_releases.1 hreleased
    obtain ⟨before, after, hpast⟩ := List.append_of_mem ht
    obtain ⟨l, hl⟩ := hlane n _ before after hpast
    obtain ⟨hclosed, hcount⟩ := hl.closed hdone hend ht
    exact ⟨l, hl, hclosed, by rw [connections, closures, hconnects, hcloses, hcount]⟩
  refine
    { live := fun id n hmem => ?_
      seen := fun n => ?_
      released := a.exact hend
      paid := hpaid
      connected := fun n => ?_
      closed := fun n => ?_
      silent := fun n before t after hpast ht u m hmem => ?_
      refused := fun n before t after hpast ht u w hu hw hlock => ?_
      settled := fun hdone n hn => ?_
      balanced := fun hdone hempty => ?_ }
  · obtain ⟨s, hs, hid⟩ := k.named id n hmem
    refine ⟨s, hs, hid, ?_⟩
    rw [Bool.eq_false_iff]
    intro hclosed
    obtain ⟨l, hl⟩ := k.lanes n (List.getElem?_eq_some_iff.1 hs).1
    obtain rfl : l.session = s := Option.some.inj (hl.session.symm.trans hs)
    have hreleased := List.count_pos_iff.2 (mem_releases.2 (Lane.Run.release_of_closed hl.run hclosed))
    have hregistered : 0 < (S.pool.registry.map (·.2)).count n :=
      List.count_pos_iff.2 (List.mem_map_of_mem (f := (·.2)) hmem)
    have := a.registered n
    have := a.covered n
    split at * <;> omega
  · have := a.registered n
    split at this <;> omega
  · rw [connections, hconnects]
    rcases Nat.lt_or_ge n S.sessions.length with hn | hn
    · obtain ⟨l, hl⟩ := k.lanes n hn
      exact (Lane.Run.balanced hl.run).once
    · rw [k.silent n hn]; exact Nat.zero_le _
  · rw [connections, closures, hconnects, hcloses]
    rcases Nat.lt_or_ge n S.sessions.length with hn | hn
    · obtain ⟨l, hl⟩ := k.lanes n hn
      exact (Lane.Run.balanced hl.run).closes_le
    · rw [k.silent n hn]; exact Nat.zero_le _
  · obtain ⟨l, hl⟩ := hlane n _ before after hpast
    have hrun := hl.run
    rw [hpast] at hrun ht
    exact Lane.Run.close_after_release hrun (hrun.arrived_before ht) hmem
  · obtain ⟨l, hl⟩ := hlane n _ before after hpast
    have hrun := hl.run
    rw [hpast] at hrun ht hu
    have hrefused := Lane.Run.refused hrun (hrun.arrived_before ht) hw hu hlock
    rw [← hpast] at hrefused
    exact ⟨l.session, hl.session, hrefused.silent, hl.gives_of_refused hrefused⟩
  · obtain ⟨l, hl, hclosed, hcount⟩ := hover hdone n hn
    exact ⟨l.session, hl.session, hclosed, hcount⟩
  · refine (List.perm_iff_count.2 fun n => ?_).length_eq
    rcases Nat.lt_or_ge n S.sessions.length with hn | hn
    · have := a.registered n
      rw [hempty, if_pos hn, List.map_nil, List.count_nil, Nat.zero_add] at this
      obtain ⟨l, hl, hclosed, hcount⟩ := hover hdone n (List.count_pos_iff.1 (by omega))
      exact hcount
    · rw [connections, closures, hconnects, hcloses, k.silent n hn]
      rfl

/-- A session is closed twice while a call on it is under way. -/
def closers : List (Choice Unit) :=
  [.come (.invoke "game" "act" (.structured [])), .come (.close "game"), .come (.close "game"),
    .ask 0, .ask 0, .read, .go 0, .go 0, .go 0, .ask 1, .ask 2, .ask 1, .read, .go 1, .go 0] ++
    List.replicate 5 (.go 0) ++ List.replicate 7 (.go 1) ++ [.ask 0, .ask 1]

theorem lifecycle_closers : ∃ past S, play obliging closers ([], quiet) = some (past, S) ∧
    S.pool.worker.ended = false ∧ connections past = [0] ∧ closures past = [0] ∧ S.Lifecycle past := by
  have hplay : (play obliging closers ([], quiet)).map
      (fun x => (x.2.pool.worker.ended, connections x.1, closures x.1)) = some (false, [0], [0]) := by
    decide
  obtain ⟨⟨past, S⟩, hplay, heq⟩ := Option.map_eq_some_iff.1 hplay
  rw [Prod.mk.injEq, Prod.mk.injEq] at heq
  obtain ⟨hend, hconnections, hclosures⟩ := heq
  exact ⟨past, S, hplay, hend, hconnections, hclosures, Run.lifecycle (run_of_play hplay .start) hend⟩

end Scene
end SessionPool
