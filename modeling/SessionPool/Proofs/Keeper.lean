import SessionPool.Proofs.Readiness
import SessionPool.Proofs.RoundTrip

/-! Keepers: servers that keep for each connection the state that was last loaded, and tell it as compact
    text. That the text still says the state is a matter of the printer and the reader. A load into a
    session that is not ready leaves it ready, with a connection that keeps the state; a ready session lets
    no further load through, so from then on it tells that state as long as nobody closes it or calls
    anything else on it. -/

namespace SessionPool
variable {ρ κ : Type}

/-- The server at a locator keeps, for each connection, the state that was last loaded, and tells it when
    it is asked to. -/
structure Remote.Keeper (r : Remote ρ κ) (l : Locator) where
  /-- The server is there. -/
  fit : ρ → Prop
  /-- Connections to the server. -/
  serves : κ → Prop
  state : κ → Json
  connects : ∀ {x}, fit x → ∃ client, (r.connect l x).1 = .ok client ∧ serves client
  loads : ∀ {x client args v}, fit x → serves client → Table.get? Arguments.scenarioKey args = some v →
    ∃ message client', (r.call client loadScenario args x).1 = (.replied (.ok message), client') ∧
      state client' = v
  saves : ∀ {x client} args, fit x → serves client →
    ∃ client', (r.call client saveScenario args x).1 = (.replied (.ok (state client).compact), client') ∧
      state client' = state client
  serves_call : ∀ {x client} operation args, fit x → serves client →
    serves (r.call client operation args x).1.2
  fit_connect : ∀ {x} l', fit x → fit (r.connect l' x).2
  fit_call : ∀ {x client operation args}, fit x → fit (r.call client operation args x).2
  fit_close : ∀ {x client}, fit x → fit (r.close client x).2

/-- Work that leaves a state where it is, if the session is ready. -/
def Work.Mild : Work → Prop
  | call operation _ => operation = saveScenario
  | load _ _ _ => True
  | release => False

/-- What such work gives on a ready session that holds a state. -/
def Work.retold (v : Json) : Work → Except PoolError Yield
  | call _ _ => .ok (.text v.compact)
  | _ => .ok (.outcome .alreadyInitialized)

/-- An echo that is the compact text of the state confirms it. -/
theorem LoadOutcome.ofEcho_compact {v : Json} (hv : v.Plain) (hd : v.depth ≤ Json.maxDepth) (message : String) :
    ofEcho v message v.compact = .loaded message true := by
  rw [ofEcho, Json.parse_compact hv hd]
  simp only [Json.same_refl, if_true]

namespace Remote.Keeper
variable {r : Remote ρ κ} {l : Locator} (k : r.Keeper l) {v : Json} {check : Bool} {w : Work} {t : Nat}
  {s : Session κ} {x x' : ρ} {st : Station κ} {e : Play ρ κ} {m : Move κ} {word : Word κ}

/-! ### One job -/

/-- A session of the server has a connection to it, if it has any. -/
def Trusts (s : Session κ) : Prop := s.locator = l → ∀ client, s.client = some client → k.serves client

/-- An open session with a connection that keeps a state. -/
structure Holds (v : Json) (s : Session κ) : Prop where
  isOpen : s.closed = false
  kept : ∃ client, s.client = some client ∧ k.serves client ∧ k.state client = v

theorem fit_heard (hx : k.fit x) (hw : r.word s x m = some (word, x')) : k.fit x' := by
  cases m with
  | connect =>
    cases hw
    exact k.fit_connect _ hx
  | call operation args =>
    rw [Remote.word] at hw
    split at hw
    · cases hw
      exact hx
    · cases hw
      exact k.fit_call hx
  | close client =>
    cases hw
    exact k.fit_close hx
  | _ => cases hw

theorem trusts_after (h : k.Trusts s) (t : Nat) (m : Move κ) : k.Trusts (s.after t m) := by
  cases m with
  | «seal» => nofun
  | _ => exact h

theorem trusts_heard (hx : k.fit x) (h : k.Trusts s) (hw : r.word s x m = some (word, x')) (t : Nat) :
    k.Trusts (s.hear t word) := by
  intro hl client hclient
  rw [Session.hear_locator] at hl
  cases m with
  | connect =>
    obtain ⟨client', hc, hserves⟩ := k.connects hx
    rw [← hl] at hc
    cases hw
    rw [hc] at hclient
    cases hclient
    exact hserves
  | call operation args =>
    rw [Remote.word] at hw
    split at hw
    · cases hw
      exact h hl client hclient
    · rename_i client' hc
      cases hw
      have hafter : (s.hear t (.answered (r.call client' operation args x).1.1
          (r.call client' operation args x).1.2)).client = some (r.call client' operation args x).1.2 := by
        cases (r.call client' operation args x).1.1 <;> rfl
      cases hafter.symm.trans hclient
      exact k.serves_call operation args hx (h hl client' hc)
  | close client' =>
    cases hw
    exact h hl client hclient
  | _ => cases hw

theorem plays_trusts (h : st.Plays r t s x e) (hx : k.fit x) (hs : k.Trusts s) :
    k.fit e.remote ∧ k.Trusts e.session :=
  h.ends (P := fun _ s x => k.fit x ∧ k.Trusts s) (fun ⟨hx, hs⟩ _ _ => ⟨hx, k.trusts_after hs t _⟩)
    (fun ⟨hx, hs⟩ _ hw => ⟨k.fit_heard hx hw, k.trusts_heard hx hs hw t⟩) ⟨hx, hs⟩

/-- What a load has to call for. -/
def Due (v : Json) (check : Bool) (s : Session κ) : Purpose → Prop
  | .use _ _ => False
  | .load state _ check' => state = v ∧ check' = check
  | .echo state _ => state = v ∧ check = true ∧ k.Holds v s

/-- Where the load of a state stands that goes well. -/
def Loading (v : Json) (check : Bool) (s : Session κ) : Station κ → Prop
  | .waiting w => s.ready = false ∧ ∃ extra, w = .load v extra check
  | .checking state _ check' => s.ready = false ∧ state = v ∧ check' = check
  | .looking p => k.Due v check s p
  | .connecting p => ∃ extra, p = .load v extra check
  | .calling p => (∃ client, s.client = some client ∧ k.serves client) ∧ k.Due v check s p
  | .logging p text =>
    k.Holds v s ∧ k.Due v check s p ∧ ∀ state message, p = .echo state message → text = v.compact
  | .marking o => k.Holds v s ∧ ∃ message, o = .loaded message check
  | .leaving result => k.Holds v s ∧ ∃ message, result = .ok (.outcome (.loaded message check))
  | .ended result => k.Holds v s ∧ ∃ message, result = .ok (.outcome (.loaded message check))
  | _ => False

theorem loading_after {reply : m.Reply} (hv : v.Plain) (hd : v.depth ≤ Json.maxDepth) (hl : s.locator = l)
    (htrusts : k.Trusts s) (hopen : s.closed = false) (h : k.Loading v check s st) (hm : st.move = some m)
    (ho : m.own? s = some reply) : k.Loading v check (s.after t m) (st.after m reply) := by
  cases st with
  | waiting w =>
    obtain ⟨hready, extra, rfl⟩ := h
    cases hm
    exact ⟨hready, rfl, rfl⟩
  | checking state extra check' =>
    obtain ⟨hready, rfl, rfl⟩ := h
    cases hm
    cases ho
    simp only [Station.after, hready]
    exact ⟨rfl, rfl⟩
  | looking p =>
    cases hm
    cases ho
    cases hclient : s.client with
    | some client =>
      simp only [Station.after, hopen, hclient]
      exact ⟨⟨client, hclient, htrusts hl client hclient⟩, h⟩
    | none =>
      simp only [Station.after, hopen, hclient]
      cases p with
      | use operation args => exact h.elim
      | load state extra check' =>
        obtain ⟨rfl, rfl⟩ := h
        exact ⟨extra, rfl⟩
      | echo state message =>
        -- A session without a connection holds nothing.
        obtain ⟨-, -, -, client, hc, -⟩ := h
        rw [hclient] at hc
        cases hc
  | logging p text =>
    obtain ⟨hholds, hdue, htext⟩ := h
    cases hm
    cases p with
    | use operation args => exact hdue.elim
    | load state extra check' =>
      obtain ⟨rfl, rfl⟩ := hdue
      cases check' with
      | true => exact ⟨rfl, rfl, hholds⟩
      | false => exact ⟨hholds, text, rfl⟩
    | echo state message =>
      obtain ⟨rfl, rfl, -⟩ := hdue
      cases htext _ _ rfl
      simp only [Station.after, Station.served, LoadOutcome.ofEcho_compact hv hd]
      exact ⟨hholds, message, rfl⟩
  | marking o =>
    obtain ⟨hholds, message, rfl⟩ := h
    cases hm
    exact ⟨⟨hholds.isOpen, hholds.kept⟩, message, rfl⟩
  | leaving result =>
    cases hm
    exact ⟨⟨h.1.isOpen, h.1.kept⟩, h.2⟩
  | connecting p | calling p => cases hm; cases ho
  | ended _ => cases hm
  | _ => exact h.elim

theorem loading_heard (hx : k.fit x) (hl : s.locator = l) (hopen : s.closed = false)
    (h : k.Loading v check s st) (hm : st.move = some m) (hw : r.word s x m = some (word, x')) :
    k.Loading v check (s.hear t word) (st.heard m word) := by
  cases st with
  | connecting p =>
    obtain ⟨extra, rfl⟩ := h
    obtain ⟨client, hc, hserves⟩ := k.connects hx
    rw [← hl] at hc
    cases hm
    cases hw
    rw [hc]
    exact ⟨⟨client, rfl, hserves⟩, rfl, rfl⟩
  | calling p =>
    obtain ⟨⟨client, hclient, hserves⟩, hdue⟩ := h
    cases hm
    simp only [Remote.word, hclient] at hw
    have hnext := k.serves_call p.operation p.args hx hserves
    cases p with
    | use operation args => exact hdue.elim
    | load state extra check' =>
      obtain ⟨rfl, rfl⟩ := hdue
      obtain ⟨message, client', hreply, hstate⟩ :=
        k.loads hx hserves (Table.get?_insert_self Arguments.scenarioKey state extra)
      simp only [Purpose.operation, Purpose.args, hreply] at hw hnext
      cases hw
      exact ⟨⟨hopen, client', rfl, hnext, hstate⟩, ⟨rfl, rfl⟩, fun _ _ h => by cases h⟩
    | echo state message =>
      obtain ⟨rfl, rfl, -, client₀, hclient₀, -, hstate⟩ := hdue
      rw [hclient] at hclient₀
      cases hclient₀
      obtain ⟨client', hreply, hstate'⟩ := k.saves [] hx hserves
      simp only [Purpose.operation, Purpose.args, hreply] at hw hnext
      cases hw
      have hholds : k.Holds state { s with client := some client' } :=
        ⟨hopen, client', rfl, hnext, hstate'.trans hstate⟩
      exact ⟨hholds, ⟨rfl, rfl, hholds⟩, fun _ _ _ => congrArg Json.compact hstate⟩
  | ended _ | dead => cases hm
  | closing id c => exact h.elim
  | _ => cases hm; cases hw

/-- A load into a session that is not ready goes well. -/
theorem plays_load {extra : Fields} (hv : v.Plain) (hd : v.depth ≤ Json.maxDepth) (hx : k.fit x)
    (hl : s.locator = l) (htrusts : k.Trusts s) (hopen : s.closed = false) (hready : s.ready = false)
    (h : (Station.waiting (.load v extra check)).Plays r t s x e) :
    ∃ message, e.result = some (.ok (.outcome (.loaded message check))) ∧ k.Holds v e.session := by
  have hlast := h.ends (P := fun st s x => st.In (.load v extra check) ∧ k.fit x ∧ s.locator = l ∧
    k.Trusts s ∧ s.closed = false ∧ k.Loading v check s st) ?_ ?_
    ⟨rfl, hx, hl, htrusts, hopen, hready, extra, rfl⟩
  · obtain ⟨-, -, -, -, -, hlast⟩ := hlast
    rw [Play.last] at hlast
    cases hresult : e.result with
    | none =>
      rw [hresult] at hlast
      exact hlast.elim
    | some result =>
      rw [hresult] at hlast
      obtain ⟨hholds, message, rfl⟩ := hlast
      exact ⟨message, rfl, hholds⟩
  · rintro st s x m reply ⟨hst, hx, hl, htrusts, hopen, h⟩ hm ho
    exact ⟨Station.in_after hst hm reply, hx, (Session.after_locator ..).trans hl, k.trusts_after htrusts t m,
      Station.open_after hst (fun h => by cases h) hopen hm t, k.loading_after hv hd hl htrusts hopen h hm ho⟩
  · rintro st s x m word x' ⟨hst, hx, hl, htrusts, hopen, h⟩ hm hw
    exact ⟨Station.in_heard hst hm word, k.fit_heard hx hw, (Session.hear_locator ..).trans hl,
      k.trusts_heard hx htrusts hw t, (Session.hear_closed ..).trans hopen,
      k.loading_heard hx hl hopen h hm hw⟩

/-- Where mild work stands on a ready session that holds a state. -/
def Steady (v : Json) (w : Work) : Station κ → Prop
  | .waiting w' => w' = w ∧ w.Mild
  | .checking state extra check => w = .load state extra check
  | .looking p => ∃ args, w = .call saveScenario args ∧ p = .use saveScenario args
  | .calling p => ∃ args, w = .call saveScenario args ∧ p = .use saveScenario args
  | .logging p text => ∃ args, w = .call saveScenario args ∧ p = .use saveScenario args ∧ text = v.compact
  | .leaving result => result = w.retold v
  | .ended result => result = w.retold v
  | _ => False

theorem steady_after {reply : m.Reply} (hholds : k.Holds v s) (hready : s.ready = true)
    (h : Steady v w st) (hm : st.move = some m) (ho : m.own? s = some reply) :
    k.Holds v (s.after t m) ∧ Steady v w (st.after m reply) := by
  cases st with
  | waiting w' =>
    obtain ⟨rfl, hmild⟩ := h
    cases hm
    refine ⟨⟨hholds.isOpen, hholds.kept⟩, ?_⟩
    cases w' with
    | call operation args =>
      cases hmild
      exact ⟨args, rfl, rfl⟩
    | load state extra check => exact rfl
    | release => exact hmild.elim
  | checking state extra check =>
    subst h
    cases hm
    cases ho
    refine ⟨hholds, ?_⟩
    simp only [Station.after, hready]
    exact rfl
  | looking p =>
    cases hm
    cases ho
    obtain ⟨client, hclient, -⟩ := hholds.kept
    refine ⟨hholds, ?_⟩
    simp only [Station.after, hholds.isOpen, hclient]
    exact h
  | logging p text =>
    obtain ⟨args, rfl, rfl, rfl⟩ := h
    cases hm
    exact ⟨hholds, rfl⟩
  | leaving result =>
    cases hm
    exact ⟨⟨hholds.isOpen, hholds.kept⟩, h⟩
  | calling p => cases hm; cases ho
  | ended _ => cases hm
  | _ => exact h.elim

theorem steady_heard (hx : k.fit x) (hholds : k.Holds v s) (h : Steady v w st) (hm : st.move = some m)
    (hw : r.word s x m = some (word, x')) : k.Holds v (s.hear t word) ∧ Steady v w (st.heard m word) := by
  cases st with
  | calling p =>
    obtain ⟨args, rfl, rfl⟩ := h
    obtain ⟨hopen, client, hclient, hserves, hstate⟩ := hholds
    cases hm
    obtain ⟨client', hreply, hstate'⟩ := k.saves args hx hserves
    have hnext := k.serves_call saveScenario args hx hserves
    simp only [Remote.word, Purpose.operation, Purpose.args, hclient, hreply] at hw hnext
    cases hw
    exact ⟨⟨hopen, client', rfl, hnext, hstate'.trans hstate⟩, args, rfl, rfl, congrArg Json.compact hstate⟩
  | ended _ | dead => cases hm
  | connecting p | closing id c => exact h.elim
  | _ => cases hm; cases hw

/-- Mild work on a ready session that holds a state tells the state, and lets it be. -/
theorem plays_mild (hx : k.fit x) (hholds : k.Holds v s) (hready : s.ready = true) (hw : w.Mild)
    (h : (Station.waiting w).Plays r t s x e) : e.result = some (w.retold v) ∧ k.Holds v e.session := by
  have hlast := h.ends (P := fun st s x => k.fit x ∧ s.ready = true ∧ k.Holds v s ∧ Steady v w st) ?_ ?_
    ⟨hx, hready, hholds, rfl, hw⟩
  · obtain ⟨-, -, hholds, hlast⟩ := hlast
    rw [Play.last] at hlast
    cases hresult : e.result with
    | none =>
      rw [hresult] at hlast
      exact hlast.elim
    | some result =>
      rw [hresult] at hlast
      exact ⟨congrArg some hlast, hholds⟩
  · rintro st s x m reply ⟨hx, hready, hholds, h⟩ hm ho
    exact ⟨hx, Session.after_ready m t hready, k.steady_after hholds hready h hm ho⟩
  · rintro st s x m word x' ⟨hx, hready, hholds, h⟩ hm hw
    exact ⟨k.fit_heard hx hw, (Session.hear_ready ..).trans hready, k.steady_heard hx hholds h hm hw⟩

/-! ### Deals -/

/-- Sessions of the server have connections to it, and those in the registry are open and have their place
    in the catalog. -/
structure Served (f : Front ρ κ) : Prop where
  tidy : f.Tidy
  fit : k.fit f.shared.remote
  trusts : ∀ s ∈ f.shared.sessions, k.Trusts s
  live : ∀ id n s, Table.get? id f.registry = some n → f.shared.sessions[n]? = some s →
    s.closed = false ∧ f.catalog.locator? (SessionKey.parse id).group = some s.locator

variable {f f' : Front ρ κ} {d : Deal κ} {ds : List (Deal κ)} {id : String} {n : Nat}

theorem Served.does (hs : k.Served f) (h : Front.Does r f d f') : k.Served f' := by
  have hlive : f'.Live fun id s =>
      s.closed = false ∧ f.catalog.locator? (SessionKey.parse id).group = some s.locator := by
    refine h.live hs.tidy (fun _ _ hl => ⟨rfl, hl⟩) (fun _ _ hs => hs) ?_ hs.live
    rintro id v t s e hv plays ⟨hopen, hplace⟩
    exact ⟨plays.stays_open hv hopen, hplace.trans (congrArg some plays.keeps.2.symm)⟩
  rw [← h.catalog] at hlive
  have htidy := h.tidy hs.tidy
  suffices hkept : k.fit f'.shared.remote ∧ ∀ s ∈ f'.shared.sessions, k.Trusts s from
    ⟨htidy, hkept.1, hkept.2, hlive⟩
  cases h with
  | found | removed | drained | cleared | chatted | stopped => exact ⟨hs.fit, hs.trusts⟩
  | made =>
    refine ⟨hs.fit, fun s hmem => ?_⟩
    rcases List.mem_append.1 hmem with hmem | hmem
    · exact hs.trusts s hmem
    · cases List.mem_singleton.1 hmem
      nofun
  | @marked _ _ s₀ hn hat =>
    have htrusts : k.Trusts s₀ := hs.trusts s₀ (List.mem_of_getElem? hat)
    refine ⟨hs.fit, fun s hmem => ?_⟩
    rcases List.mem_or_eq_of_mem_set hmem with hmem | rfl
    · exact hs.trusts s hmem
    · exact htrusts
  | worked hat proper plays hline =>
    obtain ⟨hfit, htrusts⟩ := k.plays_trusts plays hs.fit (hs.trusts _ (List.mem_of_getElem? hat))
    refine ⟨hfit, fun s hmem => ?_⟩
    rcases List.mem_or_eq_of_mem_set hmem with hmem | rfl
    · exact hs.trusts s hmem
    · exact htrusts

theorem Served.deals (hs : k.Served f) (h : Front.Deals r f ds f') : k.Served f' := by
  induction h with
  | none => exact hs
  | next first _ ih => exact ih (hs.does k first)

end Remote.Keeper

/-- Whether a deal leaves alone what the session of an id at a place holds. -/
def Deal.Spares (id : String) (n : Nat) : Deal κ → Prop
  | removed j => j ≠ id
  | drained => False
  | stopped => False
  | worked d => d.place = n → d.work.Mild
  | _ => True

theorem Deal.Spares.keeps {id : String} {n : Nat} {d : Deal κ} (h : d.Spares id n) : d.removes id = false := by
  cases d with
  | removed j => exact decide_eq_false h
  | drained => exact h.elim
  | _ => rfl

namespace Remote.Keeper
variable {r : Remote ρ κ} {l : Locator} (k : r.Keeper l) {v : Json} {check : Bool} {extra : Fields}
  {f f' : Front ρ κ} {d : Deal κ} {ds : List (Deal κ)} {id : String} {n : Nat}

/-- The session of an id is ready and holds a state. -/
structure Stored (v : Json) (id : String) (n : Nat) (f : Front ρ κ) : Prop where
  served : k.Served f
  running : f.ended = false
  named : Table.get? id f.registry = some n
  held : ∃ s, f.shared.sessions[n]? = some s ∧ k.Holds v s ∧ s.ready = true

theorem Stored.does (hs : k.Stored v id n f) (h : Front.Does r f d f') (hd : d.Spares id n) :
    k.Stored v id n f' := by
  have hserved := hs.served.does k h
  have hnamed := h.names hd.keeps hs.named
  obtain ⟨⟨-, hfit, -, -⟩, hrunning, -, s, hat, hholds, hready⟩ := hs
  have hlt := (List.getElem?_eq_some_iff.1 hat).1
  cases h with
  | found | removed | cleared | chatted => exact ⟨hserved, hrunning, hnamed, s, hat, hholds, hready⟩
  | drained | stopped => exact hd.elim
  | made => exact ⟨hserved, hrunning, hnamed, s, (List.getElem?_append_left hlt).trans hat, hholds, hready⟩
  | @marked j m s' hm hat' =>
    by_cases heq : m = n
    · subst heq
      cases hat.symm.trans hat'
      exact ⟨hserved, hrunning, hnamed, _, List.getElem?_set_self hlt, ⟨hholds.isOpen, hholds.kept⟩, rfl⟩
    · exact ⟨hserved, hrunning, hnamed, s, (List.getElem?_set_ne heq).trans hat, hholds, hready⟩
  | @worked m t w s' e hat' proper plays hline =>
    by_cases heq : m = n
    · subst heq
      cases hat.symm.trans hat'
      obtain ⟨-, hholds'⟩ := k.plays_mild hfit hholds hready (hd rfl) plays
      exact ⟨hserved, hrunning, hnamed, _, List.getElem?_set_self hlt, hholds', plays.ready.2 (.inl hready)⟩
    · exact ⟨hserved, hrunning, hnamed, s, (List.getElem?_set_ne heq).trans hat, hholds, hready⟩

theorem Stored.deals (hs : k.Stored v id n f) (h : Front.Deals r f ds f')
    (hds : ∀ d ∈ ds, d.Spares id n) : k.Stored v id n f' := by
  induction h with
  | none => exact hs
  | next first _ ih =>
    exact ih (hs.does k first (hds _ List.mem_cons_self)) fun d hd => hds d (List.mem_cons_of_mem _ hd)

end Remote.Keeper

namespace Calls
variable {r : Remote ρ κ} {f f' : Front ρ κ} {id operation : String} {args : Fields}
  {y : Except PoolError Normalized} {ds : List (Deal κ)} {n : Nat}

/-- Asking a session for its state leaves alone what it holds. -/
theorem spares (h : Calls f id saveScenario args y ds) (j : String) (n : Nat) : ∀ d ∈ ds, d.Spares j n := by
  intro d hd
  rcases h.mem hd with ⟨m, rfl⟩ | ⟨m, rfl, -⟩ | ⟨m, result, heard, rfl⟩
  · exact trivial
  · exact trivial
  · exact fun _ => rfl

end Calls

namespace Remote.Keeper
variable {r : Remote ρ κ} {l : Locator} (k : r.Keeper l) {v : Json} {check : Bool} {extra : Fields}
  {f f' : Front ρ κ} {ds : List (Deal κ)} {id : String} {n : Nat}

/-- A load into a session that is not ready stores the state. -/
theorem loads_stored {y : Except PoolError LoadOutcome} (hv : v.Plain) (hd : v.depth ≤ Json.maxDepth)
    (hstate : isEmptyScenario v = false) (hs : k.Served f) (hrunning : f.ended = false)
    (hl : f.catalog.locator? (SessionKey.parse id).group = some l)
    (hidle : ∀ n, Table.get? id f.registry = some n → f.isReady n = false)
    (h : Loads f id v extra check y ds) (hdeals : Front.Deals r f ds f') :
    ∃ message n, y = .ok (.loaded message check) ∧ k.Stored v id n f' := by
  cases h with
  | unknown hn hnone =>
    rw [hl] at hnone
    cases hnone
  | already hready =>
    cases hdeals with
    | next first _ =>
      rw [hidle _ (first.named_of_ready hready)] at hready
      cases hready
  | empty _ hempty =>
    rw [hstate] at hempty
    cases hempty
  | @sent n y ds hready _ hsent =>
    obtain ⟨result, heard, rfl, rfl⟩ := hsent.running hrunning
    cases hdeals with
    | @next _ f₁ _ _ _ first later =>
      cases later with
      | next job none =>
        cases none
        have hserved := hs.does k first
        have hserved' := hserved.does k job
        have hnamed := first.names_obtained
        have hrunning' := (job.running nofun).trans (first.running nofun)
        have hidle' : f₁.isReady n = false := (first.idle n).trans hready
        cases job with
        | @worked _ t _ s e hat proper plays hline =>
          obtain ⟨hopen, hplace⟩ := hserved.live id n s hnamed hat
          rw [first.catalog, hl] at hplace
          rw [Front.isReady, hat] at hidle'
          obtain ⟨message, hresult, hholds⟩ := k.plays_load hv hd hserved.fit (Option.some.inj hplace).symm
            (hserved.trusts s (List.mem_of_getElem? hat)) hopen hidle' plays
          have hready' : e.session.ready = true := by
            rw [plays.tells, hresult]
            rfl
          refine ⟨message, n, ?_, hserved', hrunning'.trans hrunning, hnamed, e.session, ?_, hholds, hready'⟩
          · rw [hresult]
            rfl
          · exact List.getElem?_set_self (List.getElem?_eq_some_iff.1 hat).1

/-- A session that holds a state tells it. -/
theorem Stored.calls {args : Fields} {y : Except PoolError Normalized} (hv : v.Plain)
    (hd : v.depth ≤ Json.maxDepth) (hs : k.Stored v id n f) (h : Calls f id saveScenario args y ds)
    (hdeals : Front.Deals r f ds f') : y = .ok ⟨v.compact, v⟩ := by
  have hspares := h.spares id n
  obtain ⟨before, result, heard, rfl, rfl⟩ := h.job hdeals hs.running hs.named
  obtain ⟨f₁, hbefore, hlast⟩ := hdeals.split
  obtain ⟨hserved, -, -, s, hat, hholds, hready⟩ :=
    hs.deals k hbefore fun d hd => hspares d (List.mem_append_left _ hd)
  cases hlast with
  | next job _ =>
    cases job with
    | worked hat' proper plays hline =>
      cases hat.symm.trans hat'
      obtain ⟨hresult, -⟩ := k.plays_mild (w := .call saveScenario args) hserved.fit hholds hready rfl plays
      rw [hresult]
      show Except.ok (Normalized.ofText v.compact) = _
      rw [Normalized.ofText, Json.parse_compact hv hd]

theorem Stored.saves {ids : List String} {t : Table Json} (hv : v.Plain) (hd : v.depth ≤ Json.maxDepth)
    (hs : k.Stored v id n f) (h : Saves r f ids t ds f') (hid : id ∈ ids) : Table.get? id t = some v := by
  induction h with
  | none => cases hid
  | @next _ _ _ j _ _ _ _ _ hcalls hdeals later ih =>
    by_cases heq : id = j
    · subst heq
      rw [Table.get?, if_pos rfl, hs.calls k hv hd hcalls hdeals, told?]
    · rw [Table.get?, if_neg heq]
      exact ih (hs.deals k hdeals (hcalls.spares id n)) ((List.mem_cons.1 hid).resolve_left heq)

end Remote.Keeper

end SessionPool
