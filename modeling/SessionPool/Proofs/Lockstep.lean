import SessionPool.Proofs.Serial

/-! Lockstep: two jobs with the same work, in two pools, on sessions that are alike and that nobody else
    moves on. When what a client does depends on its locator and the calls on it alone, they come to the
    same result, and leave the sessions alike. So what work comes to is a function of its session. -/

namespace SessionPool

/-- No call is held up. -/
def Remote.Prompt {ρ κ : Type} (r : Remote ρ κ) : Prop :=
  ∀ client operation x, r.stalls client operation x = false

/-- Servers whose clients know nothing of each other, and that answer every call. -/
structure Remote.Independent {ρ κ : Type} (r : Remote ρ κ) : Prop where
  connect : ∀ l x y, (r.connect l x).1 = (r.connect l y).1
  call : ∀ client operation args x y, (r.call client operation args x).1 = (r.call client operation args y).1
  close : ∀ client x y, (r.close client x).1 = (r.close client y).1
  prompt : ∀ client operation x, r.stalls client operation x = false

/-- Independent servers say the same on sessions that are alike. -/
theorem Remote.Independent.word {ρ κ : Type} {r : Remote ρ κ} (hr : r.Independent) {s s' : Session κ}
    {m : Move κ} {word : Word κ} {x x' : ρ} (hs : s'.calm = s.calm)
    (h : r.word s x m = some (word, x')) (y : ρ) : ∃ y', r.word s' y m = some (word, y') := by
  obtain ⟨id, locator, ready, closed, client, line⟩ := s
  obtain ⟨id', locator', ready', closed', client', line'⟩ := s'
  cases hs
  cases m with
  | connect =>
    cases h
    exact ⟨_, congrArg some (Prod.ext (congrArg Word.connected (hr.connect locator y x)) rfl)⟩
  | call operation args =>
    cases client with
    | none => cases h; exact ⟨_, rfl⟩
    | some client =>
      cases h
      refine ⟨(r.call client operation args y).2, ?_⟩
      simp only [Remote.word]
      rw [hr.call client operation args y x]
  | close client =>
    cases h
    exact ⟨_, congrArg some (Prod.ext (congrArg Word.closed (hr.close client y x)) rfl)⟩
  | _ => cases h

theorem Session.eq_of_calm {κ : Type} {s s' : Session κ} (hs : s'.calm = s.calm) (hl : s.line = [])
    (hl' : s'.line = []) : s' = s := by
  obtain ⟨id, locator, ready, closed, client, line⟩ := s
  obtain ⟨id', locator', ready', closed', client', line'⟩ := s'
  cases hl
  cases hl'
  exact hs

namespace Shared
variable {ρ κ : Type}

/-- A job has come to its end, without waking anybody: with a result, or without one if it died. Its session
    has changed and no other. -/
structure Ends (w : Shared ρ κ) (n : Nat)
    (a : Program.Advance (Shared ρ κ) (Deed κ) Deed.Reply (Except PoolError Yield))
    (result : Option (Except PoolError Yield)) (s : Session κ) : Prop where
  progress : a.progress = match result with
    | some x => .finished x
    | none => .died
  sessions : a.state.sessions = w.sessions.set n s
  woken : a.woken = []

variable {r : Remote ρ κ} {n t : Nat} {w w₁ : Shared ρ κ} {s s₁ : Session κ}
  {result : Option (Except PoolError Yield)}

/-- A move that goes is followed by what comes then. -/
theorem Ends.went {d : Deed κ} {next : d.Reply → Errand κ (Except PoolError Yield)} {reply : d.Reply}
    (hgo : host r t d w = .went reply w₁ []) (hs : w₁.sessions = w.sessions.set n s₁)
    (h : Ends w₁ n ((next reply).advance (host r t) w₁) result s) :
    Ends w n (Program.advance (host r t) (.act d next) w) result s := by
  refine ⟨?_, ?_, ?_⟩
  · rw [Program.advance, hgo]
    exact h.progress
  · rw [Program.advance, hgo]
    exact h.sessions.trans (by rw [hs, List.set_set])
  · rw [Program.advance, hgo]
    exact h.woken

theorem Ends.died {d : Deed κ} {next : d.Reply → Errand κ (Except PoolError Yield)}
    (hgo : host r t d w = .died w₁ []) (hs : w₁.sessions = w.sessions.set n s) :
    Ends w n (Program.advance (host r t) (.act d next) w) none s := by
  refine ⟨?_, ?_, ?_⟩
  · rw [Program.advance, hgo]
  · rw [Program.advance, hgo]
    exact hs
  · rw [Program.advance, hgo]

variable {st : Station κ} {m : Move κ}

theorem free_of_alone (hl : s.line = if st.isInside then [t] else []) : s.line = [] ∨ s.line = [t] := by
  split at hl
  · exact .inr hl
  · exact .inl hl

/-- Alone on a session, a move within the pool goes. -/
theorem host_own_alone {reply : m.Reply} (hs : w.sessions[n]? = some s) (hm : st.move = some m)
    (ho : m.own? s = some reply) (hl : s.line = if st.isInside then [t] else []) :
    host r t ⟨n, m⟩ w = .went reply (w.own t n s m) [] := by
  have hwoken := host_woken (r := r) hs (free_of_alone hl) m
  rcases host_own (r := r) (t := t) hs ho with ⟨woken, hgo, -⟩ | ⟨-, rfl, hwait⟩
  · rw [hgo] at hwoken
    rw [hgo, show woken = [] from hwoken]
  · obtain ⟨v, rfl⟩ := Station.waiting_of_lock hm
    have hnil : s.line = [] := hl
    simp [Session.lined, hnil] at hwait

/-- Alone on a session, a move that asks gets the word of the server at once. -/
theorem host_word_alone {word : Word κ} {x : ρ} (hr : r.Prompt) (hs : w.sessions[n]? = some s)
    (hw : r.word s w.remote m = some (word, x)) (hl : s.line = if st.isInside then [t] else []) :
    host r t ⟨n, m⟩ w = turn (w.heard t n s word x) m (word.reply m) [] := by
  have hwoken := host_woken (r := r) hs (free_of_alone hl) m
  obtain ⟨woken, hgo⟩ := host_prompt (t := t) hr hs hw
  rw [hgo] at hwoken ⊢
  cases hreply : word.reply m with
  | none =>
    rw [hreply] at hwoken
    rw [show woken = [] from hwoken]
  | some reply =>
    rw [hreply] at hwoken
    rw [show woken = [] from hwoken]

/-- Two jobs at one station, each alone on its session, come to the same. -/
theorem lockstep (hr : r.Independent) (n' t' : Nat) : ∀ (p p' : Errand κ (Except PoolError Yield))
    {st : Station κ} {w w' : Shared ρ κ} {s s' : Session κ},
    Errand.Follows n p st → Errand.Follows n' p' st → w.sessions[n]? = some s →
    w'.sessions[n']? = some s' → s'.calm = s.calm → (s.line = if st.isInside then [t] else []) →
    (s'.line = if st.isInside then [t'] else []) →
    ∃ result s₁, Ends w n (p.advance (host r t) w) result s₁ ∧
      Ends w' n' (p'.advance (host r t') w') result s₁ ∧ s₁.line = [] ∧ s₁.id = s.id := by
  intro p
  induction p with
  | done result =>
    intro p' st w w' s s' hp hp' hs hs' hcalm hl hl'
    cases hp
    obtain rfl : s' = s := Session.eq_of_calm hcalm hl hl'
    cases p' with
    | act d' next' => cases hp'.2.1
    | done result' =>
      cases hp'
      exact ⟨some result, s', ⟨rfl, (set_self hs).symm, rfl⟩, ⟨rfl, (set_self hs').symm, rfl⟩, hl, rfl⟩
  | act d next ih =>
    intro p' st w w' s s' hp hp' hs hs' hcalm hl hl'
    obtain ⟨n₀, m⟩ := d
    obtain ⟨rfl, hm, hnext⟩ := hp
    cases p' with
    | done result' =>
      cases hp'
      cases hm
    | act d' next' =>
      obtain ⟨n₁, m'⟩ := d'
      obtain ⟨rfl, hm', hnext'⟩ := hp'
      obtain rfl : m = m' := Option.some.inj (hm.symm.trans hm')
      cases hremote : m.isRemote with
      | false =>
        obtain ⟨reply, ho⟩ := Move.own_of_not_remote s hremote
        obtain ⟨reply', ho', hafter⟩ := Move.own_calm hcalm ho
        obtain ⟨result, s₁, h, h', hend, hid⟩ := ih reply (next' reply') (hnext reply)
          (hafter st ▸ hnext' reply') (own_session hs t m) (own_session hs' t' m)
          (Session.after_calm t t' m hcalm) (Station.line_after hm ho hl)
          (hafter st ▸ Station.line_after hm ho' hl')
        exact ⟨result, s₁, .went (host_own_alone hs hm ho hl) rfl h,
          .went (host_own_alone hs' hm ho' hl') rfl h', hend, hid.trans (Session.after_id ..)⟩
      | true =>
        obtain ⟨word, x, hword⟩ := word_of_remote (r := r) (w := w) s hremote
        obtain ⟨y, hword'⟩ := hr.word hcalm hword w'.remote
        have hfits := (host_remote (t := t) hs hword).1
        have hfits' := (host_remote (t := t') hs' hword').1
        have hheard := host_word_alone (t := t) hr.prompt hs hword hl
        have hheard' := host_word_alone (t := t') hr.prompt hs' hword' hl'
        have hline := Station.line_heard hm hfits hl
        have hline' := Station.line_heard hm hfits' hl'
        have hcalm' := Session.hear_calm t t' word hcalm
        cases hreply : word.reply m with
        | none =>
          -- Both die of the word, and leave the line.
          rw [hreply] at hheard hheard'
          rw [Station.heard, hreply] at hline hline'
          have hsame := Session.eq_of_calm hcalm' hline hline'
          exact ⟨none, s.hear t word, .died hheard rfl, hsame ▸ .died hheard' rfl, hline, Session.hear_id ..⟩
        | some reply =>
          rw [hreply] at hheard hheard'
          rw [Station.heard, hreply] at hline hline'
          obtain ⟨result, s₁, h, h', hend, hid⟩ := ih reply (next' reply) (hnext reply) (hnext' reply)
            (heard_session hs t word x) (heard_session hs' t' word y) hcalm' hline hline'
          exact ⟨result, s₁, .went hheard rfl h, .went hheard' rfl h', hend, hid.trans (Session.hear_id ..)⟩

end Shared

/-- What work comes to on a session, where there is nothing else: its result, if it does not die, and the
    session then. -/
def Session.outcome {ρ κ : Type} (r : Remote ρ κ) (x : ρ) (s : Session κ) (v : Work) :
    Option (Except PoolError Yield) × Session κ :=
  let a := (Errand.ofWork 0 v).advance (Shared.host r 0) { sessions := [s], remote := x }
  (match a.progress with
    | .finished result => some result
    | _ => none, a.state.sessions.headD s)

/-- What work comes to follows from its session, wherever that is. -/
theorem Shared.ends_outcome {ρ κ : Type} {r : Remote ρ κ} (hr : r.Independent) (x : ρ) {n t : Nat}
    {w : Shared ρ κ} {s : Session κ} (v : Work) (hs : w.sessions[n]? = some s) (hl : s.line = []) :
    Ends w n ((Errand.ofWork n v).advance (host r t) w) (s.outcome r x v).1 (s.outcome r x v).2 ∧
      (s.outcome r x v).2.line = [] ∧ (s.outcome r x v).2.id = s.id := by
  have here : ({ sessions := [s], remote := x } : Shared ρ κ).sessions[0]? = some s := rfl
  obtain ⟨result, s₁, h, h', hline, hid⟩ := lockstep (t := t) hr 0 0 _ _ (Errand.ofWork_follows n v)
    (Errand.ofWork_follows 0 v) hs here rfl hl hl
  have hresult : (s.outcome r x v).1 = result := by
    simp only [Session.outcome, h'.progress]
    cases result <;> rfl
  have hsession : (s.outcome r x v).2 = s₁ := by
    simp only [Session.outcome, h'.sessions]
    rfl
  rw [hresult, hsession]
  exact ⟨h, hline, hid⟩

end SessionPool
