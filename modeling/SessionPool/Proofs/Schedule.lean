import SessionPool.Proofs.Interleaving

/-! Schedules: who takes the next step, and then who, and so on. What a step does follows from the choice
    of who takes it, so a schedule can be played, and the runs of a pool are what schedules make. -/

namespace SessionPool.Scene
variable {ρ κ : Type}

/-- Who takes the next step. -/
inductive Choice (ρ : Type) where
  | come (order : Order)
  | ask (caller : Nat)
  | giveUp (caller : Nat)
  | chat (session user assistant : String)
  | read
  /-- A job goes on: it makes a move, asks the server, hears from it, or yields. -/
  | go (ticket : Nat)
  | world (remote : ρ)
  | arrange (turns roused stalled : List Nat) (holder : Option Nat) (left looks : Nat)

/-- How a job goes on that makes a move next. -/
def act (r : Remote ρ κ) (S : Scene ρ κ) (t : Nat) (d : Deed κ)
    (next : d.Reply → Errand κ (Except PoolError Yield)) : Option (Event κ × Scene ρ κ) :=
  if d.move.isRemote then
    if t ∈ S.flying then
      match S.pool.shared.sessions[d.session]? with
      | none => none
      | some s =>
        match r.word s S.pool.shared.remote d.move with
        | none => none
        | some (word, _) =>
          match Shared.host r t d S.pool.shared with
          | .went reply w _ =>
            some (.work d.session t (.heard d.move word),
              { S with pool := S.pool.withJob t (.pending (next reply)) w, flying := S.flying.erase t })
          | .died w _ =>
            some (.work d.session t (.heard d.move word),
              { S with pool := S.pool.withJob t .dropped w, flying := S.flying.erase t })
          | _ => none
    else some (.work d.session t (.sent d.move), { S with flying := t :: S.flying })
  else
    match Shared.host r t d S.pool.shared with
    | .went reply w _ =>
      some (.work d.session t (.moved d.move),
        { S with pool := S.pool.withJob t (.pending (next reply)) w })
    | .waits w => some (.work d.session t .queued, { S with pool := { S.pool with shared := w } })
    | _ => none

/-- How a job goes on that has been read from the inbox. -/
def go (r : Remote ρ κ) (S : Scene ρ κ) (t : Nat) : Option (Event κ × Scene ρ κ) :=
  if Message.run t ∈ S.pool.worker.inbox then none
  else
    match S.pool.worker.jobs[t]? with
    | some (.pending (.act d next)) => S.act r t d next
    | some (.pending (.done result)) =>
      S.works[t]?.map fun x => (.work x.1 t (.yielded result),
        { S with pool := S.pool.withJob t (.finished result) S.pool.shared })
    | _ => none

/-- The step that is chosen, if it can be taken. -/
def next (r : Remote ρ κ) (S : Scene ρ κ) : Choice ρ → Option (Event κ × Scene ρ κ)
  | .come order => some (.came order, { S with callers := S.callers ++ [order.program S.pool.catalog] })
  | .ask i =>
    match S.callers[i]? with
    | some (Program.act a next) =>
      match S.pool.answer a with
      | .went reply p _ =>
        some (.asked i a reply,
          { S with pool := p, callers := S.callers.set i (next reply), works := S.works ++ a.sends reply })
      | _ => none
    | _ => none
  | .giveUp i =>
    match S.callers[i]? with
    | some (Program.act a next) =>
      if Pool.waits a then
        match S.pool.giveUp a with
        | .went reply p _ => some (.gaveUp i a, { S with pool := p, callers := S.callers.set i (next reply) })
        | _ => none
      else none
    | _ => none
  | .chat session user assistant =>
    some (.chatted session user assistant, { S with pool := S.pool.chat session user assistant })
  | .read =>
    match S.pool.worker.inbox with
    | [] => none
    | m :: rest =>
      some (.read, { S with pool := { S.pool with worker := { S.pool.worker with inbox := rest }.take m } })
  | .go t => S.go r t
  | .world remote =>
    some (.other, { S with pool := { S.pool with shared := { S.pool.shared with remote := remote } } })
  | .arrange turns roused stalled holder left looks =>
    some (.other, { S with pool := { S.pool with worker := { S.pool.worker with
      turns := turns, roused := roused, stalled := stalled, holder := holder, left := left
      looks := looks } } })

/-- Plays a schedule after what has happened; a choice that cannot be taken ends it. -/
def play (r : Remote ρ κ) : List (Choice ρ) → List (Event κ) × Scene ρ κ →
    Option (List (Event κ) × Scene ρ κ)
  | [], x => some x
  | choice :: rest, (past, S) =>
    match S.next r choice with
    | none => none
    | some (e, S') => play r rest (past ++ [e], S')

variable {r : Remote ρ κ} {c : Catalog} {o : Options} {remote : ρ} {past : List (Event κ)}
  {S S' : Scene ρ κ} {t : Nat} {e : Event κ} {choice : Choice ρ}

theorem step_of_go (h : S.go r t = some (e, S')) : Step r S e S' := by
  unfold go at h
  split at h
  · cases h
  rename_i hread
  split at h
  · rename_i d next hjob
    unfold act at h
    split at h
    · rename_i hd
      split at h
      · rename_i hf
        split at h
        · cases h
        · rename_i hs
          split at h
          · cases h
          · rename_i hword
            split at h
            · cases h; exact .hear ⟨hjob, hread⟩ hf hs hword ‹_›
            · cases h; exact .die ⟨hjob, hread⟩ hf hs hword ‹_›
            · cases h
      · cases h; exact .send ⟨hjob, hread⟩ hd ‹_›
    · rename_i hd
      split at h
      · cases h; exact .move ⟨hjob, hread⟩ (Bool.not_eq_true _ ▸ hd) ‹_›
      · cases h; exact .queue ⟨hjob, hread⟩ (Bool.not_eq_true _ ▸ hd) ‹_›
      · cases h
  · rename_i result hjob
    obtain ⟨⟨n, w⟩, hwork, heq⟩ := Option.map_eq_some_iff.1 h
    cases heq
    exact .yield ⟨hjob, hread⟩ hwork
  · cases h

theorem step_of_next (h : S.next r choice = some (e, S')) : Step r S e S' := by
  cases choice with
  | come order => cases h; exact .come order
  | ask i =>
    simp only [next] at h
    split at h
    · split at h
      · cases h; exact .ask ‹_› ‹_›
      · cases h
    · cases h
  | giveUp i =>
    simp only [next] at h
    split at h
    · split at h
      · split at h
        · cases h; exact .giveUp ‹_› ‹_› ‹_›
        · cases h
      · cases h
    · cases h
  | chat session user assistant => cases h; exact .chat ..
  | read =>
    simp only [next] at h
    split at h
    · cases h
    · cases h; exact .read ‹_›
  | go t => exact step_of_go h
  | world remote => cases h; exact .world remote
  | arrange turns roused stalled holder left looks => cases h; exact .arrange ..

theorem go_eq_act {d : Deed κ} {next : d.Reply → Errand κ (Except PoolError Yield)}
    (h : S.HasJob t (.act d next)) : S.go r t = S.act r t d next := by
  rw [go, if_neg h.2, h.1]

/-- Each step can be chosen. -/
theorem Step.next (h : Step r S e S') : ∃ choice, S.next r choice = some (e, S') := by
  cases h with
  | come order => exact ⟨.come order, rfl⟩
  | @ask i a next reply p woken hi ha => exact ⟨.ask i, by simp only [Scene.next, hi, ha]⟩
  | @giveUp i a next reply p woken hi hw ha =>
    exact ⟨.giveUp i, by simp only [Scene.next, hi, hw, if_true, ha]⟩
  | chat session user assistant => exact ⟨.chat session user assistant, rfl⟩
  | read hm => exact ⟨.read, by simp only [Scene.next, hm]⟩
  | @queue t d next w ht hd hw =>
    refine ⟨.go t, (go_eq_act ht).trans ?_⟩
    simp only [act, hd, Bool.false_eq_true, if_false, hw]
  | @move t d next reply w woken ht hd hw =>
    refine ⟨.go t, (go_eq_act ht).trans ?_⟩
    simp only [act, hd, Bool.false_eq_true, if_false, hw]
  | @send t d next ht hd hf =>
    refine ⟨.go t, (go_eq_act ht).trans ?_⟩
    simp only [act, hd, if_true, hf, if_false]
  | @hear t d next reply w woken s word remote ht hf hs hr hw =>
    refine ⟨.go t, (go_eq_act ht).trans ?_⟩
    have hd : d.move.isRemote = true := (Shared.host_remote (t := t) hs hr).1.isRemote
    simp only [act, hd, if_true, hf, hs, hr, hw]
  | @die t d next w woken s word remote ht hf hs hr hw =>
    refine ⟨.go t, (go_eq_act ht).trans ?_⟩
    have hd : d.move.isRemote = true := (Shared.host_remote (t := t) hs hr).1.isRemote
    simp only [act, hd, if_true, hf, hs, hr, hw]
  | @yield t n w result ht hn =>
    refine ⟨.go t, ?_⟩
    simp only [Scene.next, go, if_neg ht.2, ht.1, hn]
    rfl
  | world remote => exact ⟨.world remote, rfl⟩
  | arrange turns roused stalled holder left looks =>
    exact ⟨.arrange turns roused stalled holder left looks, rfl⟩

theorem play_append : ∀ {choices : List (Choice ρ)} {x y : List (Event κ) × Scene ρ κ},
    play r choices x = some y → ∀ later, play r (choices ++ later) x = play r later y
  | [], _, _, h, _ => by cases h; rfl
  | choice :: choices, (past, S), y, h, later => by
    rw [List.cons_append, play]
    rw [play] at h
    cases hnext : S.next r choice with
    | none =>
      rw [hnext] at h
      cases h
    | some x =>
      rw [hnext] at h
      exact play_append h later

theorem run_of_play : ∀ {choices : List (Choice ρ)} {x y : List (Event κ) × Scene ρ κ},
    play r choices x = some y → Run r c o remote x.1 x.2 → Run r c o remote y.1 y.2
  | [], _, _, h, run => by cases h; exact run
  | choice :: choices, (past, S), y, h, run => by
    rw [play] at h
    split at h
    · cases h
    · exact run_of_play h (run.step (step_of_next ‹_›))

/-- The runs of a pool are what schedules make. -/
theorem run_iff_play : Run r c o remote past S ↔
    ∃ choices, play r choices ([], start c o remote) = some (past, S) := by
  constructor
  · intro run
    induction run with
    | start => exact ⟨[], rfl⟩
    | step _ h ih =>
      obtain ⟨choices, hplay⟩ := ih
      obtain ⟨choice, hnext⟩ := h.next
      refine ⟨choices ++ [choice], ?_⟩
      rw [play_append hplay, play, hnext]
      rfl
  · rintro ⟨choices, h⟩
    exact run_of_play h .start

/-- A server that does whatever it is asked, and always says the same. -/
def obliging : Remote Unit Unit where
  connect _ _ := (.ok (), ())
  list _ _ := ((.ok [], ()), ())
  call _ _ _ _ := ((.replied (.ok "true"), ()), ())
  close _ _ := (.ok (), ())
  stalls _ _ _ := false

/-- A pool for one group, before anybody comes. -/
def quiet : Scene Unit Unit := start [("game", ⟨⟨"server", none, []⟩, []⟩)] {} ()

end SessionPool.Scene
