import SessionPool.Proofs.Keeper
import SessionPool.Proofs.Routing
import SessionPool.Rehearsal.House

/-! Restoring: a state that was loaded into a session is what the session tells from then on. Neither loads
    nor saves nor whatever is done to other sessions changes that, until the session is closed. Scripted
    servers that are offered the operations on states keep them as it takes. -/

namespace SessionPool
variable {ρ κ : Type}

/-! ### Instructions -/

namespace Instruction

/-- An instruction leaves a session alone, but for loads and for asking it for its state. -/
def Spares (id : String) : Instruction → Prop
  | order (.close session) => session ≠ id
  | order (.invoke session name _) =>
    session = id → ∃ operation, Names name operation ∧ (isLoad operation = true ∨ operation = saveScenario)
  | i => i.sweeps = false

variable {r : Remote ρ κ} {f f' : Front ρ κ} {i : Instruction} {id operation : String} {args : Fields}
  {x : Upshot} {ds : List (Deal κ)} {n : Nat}

theorem not_sweeps_of_spares (hi : i.Spares id) : i.sweeps = false := by
  cases i with
  | order o =>
    cases o with
    | close _ | invoke _ _ _ => rfl
    | _ => exact hi
  | _ => exact hi

/-- What is called on the session itself asks for its state. -/
theorem save_of_spares (hi : i.Spares id) (hcall : i.call? id = some (operation, args)) :
    operation = saveScenario := by
  cases i with
  | order o =>
    cases o with
    | invoke session name arguments =>
      simp only [call?] at hcall
      split at hcall
      · cases hcall
      · split at hcall
        · rename_i hyes
          cases hcall
          obtain ⟨operation, hname, hstate⟩ := hi hyes.1
          obtain rfl := names_iff.1 hname
          rw [hyes.2] at hstate
          exact hstate.resolve_left Bool.false_ne_true
        · cases hcall
    | saveAll =>
      cases hcall
      rfl
    | _ => cases hcall
  | _ => cases hcall

/-- The deals of such an instruction leave alone what the session holds. -/
theorem Makes.spares (h : i.Makes r f x ds f') (hdeals : Front.Deals r f ds f') (ht : f.Tidy)
    (hn : Table.get? id f.registry = some n) (hi : i.Spares id) : ∀ d ∈ ds, d.Spares id n := by
  intro d hd
  have hsweeps := not_sweeps_of_spares hi
  cases h.permits hd with
  | obtained | marked | stateless | chatted | cleared => exact trivial
  | loaded => exact fun _ => trivial
  | @removed j hclose =>
    subst hclose
    exact hi
  | released hclose hj =>
    subst hclose
    rintro rfl
    exact hi (ht.inj hj hn)
  | swept hyes | drained hyes =>
    rw [hsweeps] at hyes
    cases hyes
  | stopped hyes =>
    cases i with
    | order o =>
      cases o with
      | shutdown within => cases hsweeps
      | _ => cases hyes
    | _ => cases hyes
  | @called j operation args m result heard hcall =>
    -- A call is on the session itself only if it asks for the state.
    by_cases hall : i = .order .saveAll
    · subst hall
      cases hcall
      exact fun _ => rfl
    rintro rfl
    obtain ⟨y, -, hcalls⟩ := h.calls hcall hall
    have hj := hcalls.place hdeals hd
    have hid := hdeals.names (hcalls.keeps id) hn
    cases (hdeals.tidy ht).inj hj hid
    exact save_of_spares hi hcall

end Instruction

/-- A session is ready, and whenever it is asked for its state, by whatever name of that operation, it tells
    that one. -/
structure Desk.Recalls (r : Remote ρ κ) (d : Desk ρ κ) (id : String) (v : Json) : Prop where
  ready : ∃ n, Table.get? id d.pool.registry = some n ∧ d.pool.isReady n = true
  invoked : ∀ name args fields, Names name saveScenario → args.fields = .ok fields →
    (d.obey r (.order (.invoke id name args))).1 = .gave (.result (.ok ⟨v.compact, v⟩))
  saved : ∃ t, (d.obey r (.order .saveAll)).1 = .gave (.states t) ∧ Table.get? id t = some v

namespace Remote.Keeper
variable {r : Remote ρ κ} {l : Locator} (k : r.Keeper l) {v : Json} {d : Desk ρ κ} {id : String} {n : Nat}
  {p : Pool ρ κ}

theorem served_made (hp : p.Made r) (hfit : k.fit p.shared.remote) : k.Served p.front := by
  have hregistry : p.front.registry = [] := hp.rest.2
  refine ⟨hp.quiet.tidy, hfit, ?_, ?_⟩
  · intro s hs
    rw [show p.front.shared.sessions = [] from hp.fresh.2.2] at hs
    cases hs
  · intro id n s hn
    rw [hregistry] at hn
    cases hn

theorem served_after (hr : r.Prompt) (run : List Instruction) (hrun : ∀ i ∈ run, i.isShutdown = false)
    (h : d.pool.Quiet) (hs : k.Served d.pool.front) (hrunning : d.pool.front.ended = false) :
    k.Served (d.after r run).pool.front ∧ (d.after r run).pool.front.ended = false ∧
      (d.after r run).pool.front.catalog = d.pool.front.catalog := by
  refine Desk.after_keeps hr (P := fun d' => k.Served d'.pool.front ∧ d'.pool.front.ended = false ∧
    d'.pool.front.catalog = d.pool.front.catalog) ?_ run hrun h ⟨hs, hrunning, rfl⟩
  rintro d i x ds d' - hi hobeys ⟨hs, hrunning, hcatalog⟩
  have hstopped : .stopped ∉ ds := by
    intro hd
    cases hobeys.makes.permits hd with
    | stopped hyes =>
      rw [hi] at hyes
      cases hyes
  exact ⟨hs.deals k hobeys.deals, (hobeys.deals.running hstopped).trans hrunning,
    hobeys.deals.catalog.trans hcatalog⟩

theorem stored_after (hr : r.Prompt) (run : List Instruction) (hrun : ∀ i ∈ run, i.Spares id)
    (h : d.pool.Quiet) (hs : k.Stored v id n d.pool.front) : k.Stored v id n (d.after r run).pool.front := by
  refine Desk.after_keeps hr (P := fun d' => k.Stored v id n d'.pool.front) ?_ run hrun h hs
  intro d i x ds d' h hi hobeys hs
  exact hs.deals k hobeys.deals (hobeys.makes.spares hobeys.deals h.tidy hs.named hi)

/-- A session that holds a state is ready and tells it. -/
theorem Stored.recalls (hr : r.Prompt) (hv : v.Plain) (hd : v.depth ≤ Json.maxDepth) (h : d.pool.Quiet)
    (hs : k.Stored v id n d.pool.front) : d.Recalls r id v where
  ready := by
    obtain ⟨-, -, hn, s, hat, -, hready⟩ := hs
    refine ⟨n, hn, ?_⟩
    rw [Pool.isReady, show d.pool.shared.sessions[n]? = some s from hat]
    exact hready
  invoked name args fields hname hargs := by
    obtain ⟨x, ds, d', hobeys⟩ := Desk.obeys hr h (.order (.invoke id name args))
    have hload : isLoad saveScenario = false := by decide
    have hcall : (Instruction.order (.invoke id name args)).call? id = some (saveScenario, fields) := by
      simp only [Instruction.call?, hargs, names_iff.1 hname, hload, and_self, if_true]
    obtain ⟨y, rfl, hcalls⟩ := hobeys.makes.calls hcall fun h => by cases h
    rw [hobeys.obey, hs.calls k hv hd hcalls hobeys.deals]
  saved := by
    obtain ⟨x, ds, d', hobeys⟩ := Desk.obeys hr h (.order .saveAll)
    rw [hobeys.obey]
    cases hobeys.makes with
    | ordered hmakes =>
      cases hmakes with
      | @saved t _ _ hsaves =>
        have hid := (Table.mem_keys_iff h.tidy.sorted).2 (Option.isSome_iff_exists.2 ⟨n, hs.named⟩)
        exact ⟨t, rfl, hs.saves k hv hd hsaves hid⟩

end Remote.Keeper

/-! ### Scripted servers -/

namespace Rehearsal
variable {h h' : House} {p : Player} {args : Fields} {spot operation : String}

/-- A server that loads states and tells them, as they are. -/
structure Script.Keeps (s : Script) : Prop where
  load : ∃ o, s.operations.get? loadScenario = some (o, [.load])
  save : ∃ o, s.operations.get? saveScenario = some (o, [.save {}])

/-- A play of one part is that part each time. -/
theorem Play.part_singleton (q : Part) (n : Nat) : Play.part [q] n = q := by
  cases n <;> rfl

theorem Echo.apply_plain (state : Json) : Echo.apply {} state = state := by
  cases state <;> rfl

namespace Player

theorem play_load {v : Json} (hp : p.script.Keeps) (hv : Table.get? Arguments.scenarioKey args = some v)
    (n : Nat) : p.play loadScenario args n =
      (.replied (.ok "Successfully loaded from scenario."), { p with state := v }) := by
  obtain ⟨o, ho⟩ := hp.load
  simp only [play, ho, Play.part_singleton, perform, loaded, hv]

theorem play_save (hp : p.script.Keeps) (args : Fields) (n : Nat) :
    p.play saveScenario args n = (.replied (.ok p.state.compact), p) := by
  obtain ⟨o, ho⟩ := hp.save
  simp only [play, ho, Play.part_singleton, perform, Echo.apply_plain]

theorem play_script (p : Player) (operation : String) (args : Fields) (n : Nat) :
    (p.play operation args n).2.script = p.script := by
  rw [play]
  split
  · rfl
  · rename_i part _
    cases Play.part part n <;> rfl

end Player

namespace House

/-- A server is found at a place that keeps states and can be connected to from now on. -/
def Fits (spot : String) (h : House) : Prop :=
  ∃ s, Table.get? spot h.servers = some s ∧ s.script.Keeps ∧ s.script.connects.length ≤ s.attempts

/-- Servers only count what is asked of them. -/
theorem Fits.insert {spot' : String} {s s' : Server} (hfits : h.Fits spot)
    (hs : Table.get? spot' h.servers = some s) (hservers : h'.servers = h.servers.insert spot' s')
    (hscript : s'.script = s.script) (hattempts : s.attempts ≤ s'.attempts) : h'.Fits spot := by
  obtain ⟨s₀, hs₀, hkeeps, hlength⟩ := hfits
  rw [Fits, hservers]
  by_cases heq : spot = spot'
  · subst heq
    cases hs.symm.trans hs₀
    exact ⟨s', Table.get?_insert_self .., hscript ▸ hkeeps, hscript ▸ Nat.le_trans hlength hattempts⟩
  · exact ⟨s₀, (Table.get?_insert_of_ne heq ..).trans hs₀, hkeeps, hlength⟩

theorem Fits.connect (hfits : h.Fits spot) (l : Locator) : (connect l h).2.Fits spot := by
  rw [House.connect]
  simp only
  split
  · exact hfits
  · rename_i s hs
    split <;> exact hfits.insert hs rfl rfl (Nat.le_succ _)

theorem Fits.turn (hfits : h.Fits spot) (spot' operation : String) : (h.turn spot' operation).2.Fits spot := by
  rw [House.turn]
  split
  · exact hfits
  · rename_i s hs
    exact hfits.insert hs rfl rfl (Nat.le_refl _)

theorem Fits.call (hfits : h.Fits spot) (p : Player) (operation : String) (args : Fields) :
    (call p operation args h).2.Fits spot := by
  have hturn : ((h.enter operation).turn p.place operation).2.Fits spot :=
    Fits.turn (h := h.enter operation) hfits ..
  rw [House.call]
  simp only
  split <;> exact hturn

/-- A call is answered as it is played, however often it was played before. -/
theorem call_of_play {reply : Except RemoteError String} {p' : Player}
    (hplay : ∀ n, p.play operation args n = (.replied reply, p')) :
    (call p operation args h).1 = (.replied reply, p') := by
  rw [call]
  simp only [hplay]

theorem call_script (p : Player) (operation : String) (args : Fields) (h : House) :
    (call p operation args h).1.2.script = p.script := by
  rw [call]
  simp only
  split
  · rename_i p' hplay
    rw [← Player.play_script p operation args, hplay]
  · rename_i reply p' hplay
    rw [← Player.play_script p operation args, hplay]

/-- The servers of a house without gates. -/
def ungated : Remote House Player := { remote with stalls := fun _ _ _ => false }

/-- A server that is offered the operations that load and tell states is a keeper of them. -/
def keeper (l : Locator) : ungated.Keeper l where
  fit := Fits (place l.path)
  serves p := p.script.Keeps
  state := Player.state
  connects := by
    rintro h ⟨s, hs, hkeeps, hlength⟩
    refine ⟨{ place := place l.path, script := s.script }, ?_, hkeeps⟩
    show (connect l h).1 = _
    simp only [connect, hs, List.getElem?_eq_none hlength]
  loads := fun _ hp hv => ⟨_, _, call_of_play (Player.play_load hp hv), rfl⟩
  saves := fun args _ hp => ⟨_, call_of_play (Player.play_save hp args), rfl⟩
  serves_call := by
    intro h p operation args _ hp
    show (call p operation args h).1.2.script.Keeps
    rwa [call_script]
  fit_connect l' hfits := hfits.connect l'
  fit_call hfits := hfits.call ..
  fit_close hfits := hfits

end House
end Rehearsal

/-- Where no call is held up, a state without doubles that is not nested deeper than the reader follows is
    loaded into any session of a keeper that is not ready, whatever was done before as long as the pool was
    not shut down, and is told from then on until the session is closed. -/
theorem Remote.Keeper.restores {r : Remote ρ κ} {l : Locator} {p : Pool ρ κ} (k : r.Keeper l) (hr : r.Prompt)
    (hp : p.Made r) (hfit : k.fit p.shared.remote) {v : Json} (hv : v.Plain) (hd : v.depth ≤ 127)
    (hstate : isEmptyScenario v = false) {id : String}
    (hl : p.catalog.locator? (SessionKey.parse id).group = some l) (files : FileTree)
    {before : List Instruction} (hrunning : ∀ i ∈ before, i.isShutdown = false)
    (hidle : ∀ n, Table.get? id ((Desk.mk p files).after r before).pool.registry = some n →
      ((Desk.mk p files).after r before).pool.isReady n = false) (extra : Fields) (check : Bool) :
    ∃ message d, ((Desk.mk p files).after r before).obey r (.order (.load id v extra check)) =
        (.gave (.outcome (.ok (.loaded message check))), d) ∧
      ∀ later : List Instruction, (∀ i ∈ later, i.Spares id) → (d.after r later).Recalls r id v := by
  have hquiet : ((Desk.mk p files).after r before).pool.Quiet := Desk.after_quiet hr before hp.quiet
  obtain ⟨hserved, hopen, hcatalog⟩ := k.served_after hr before hrunning (d := Desk.mk p files) hp.quiet
    (k.served_made hp hfit) hp.rest.1.resting.ended
  obtain ⟨x, ds, d, hobeys⟩ := Desk.obeys hr hquiet (.order (.load id v extra check))
  obtain ⟨y, rfl, hloads⟩ := hobeys.makes.loads rfl
  obtain ⟨message, n, rfl, hstored⟩ :=
    k.loads_stored hv hd hstate hserved hopen (hcatalog.symm ▸ hl) hidle hloads hobeys.deals
  refine ⟨message, d, hobeys.obey, fun later hlater => ?_⟩
  have hkept := k.stored_after hr later hlater hobeys.quiet hstored
  exact hkept.recalls k hr hv hd (Desk.after_quiet hr later hobeys.quiet)

/-- A house with one server, which keeps states. -/
def attic : Rehearsal.House := .ofScripts [("trunk.py", ({} : Rehearsal.Script).offerScenario {})]

/-- A pool with sessions of that server. -/
def loft : Pool Rehearsal.House Rehearsal.Player :=
  .ofCatalog [("trunk", ⟨⟨"trunk.py", none, []⟩, []⟩)] {} attic

/-- A state with a key that needs escapes, and with the least and the greatest integer. -/
def heirloom : Json :=
  .obj [("\n\"", .arr [.int (-0x8000000000000000), .int 0xffffffffffffffff, .null]), ("lid", .obj [])]

/-- What is done while the state is kept. -/
def tenancy : List Instruction :=
  [.order (.load "trunk-ada" (.bool true) [] false), .order (.invoke "trunk-ada" loadScenario (.structured [])),
    .order (.load "trunk-bob" (.str "spare") [] true), .order (.invoke "trunk-bob" "shake" (.structured [])),
    .order (.invoke "trunk-ada" "trunk-save_scenario" (.text " ")), .order .saveAll,
    .order (.close "trunk-bob"), .mark "trunk-ada"]

theorem restores_heirloom : ∃ message d, ((Desk.mk loft []).after Rehearsal.House.ungated
      [.order (.obtain "trunk-ada")]).obey Rehearsal.House.ungated (.order (.load "trunk-ada" heirloom [] true)) =
        (.gave (.outcome (.ok (.loaded message true))), d) ∧
    (d.after Rehearsal.House.ungated tenancy).Recalls Rehearsal.House.ungated "trunk-ada" heirloom ∧
    ((d.after Rehearsal.House.ungated tenancy).obey Rehearsal.House.ungated
      (.order (.invoke "trunk-ada" "save_scenario" (.text "")))).1 =
        .gave (.result (.ok ⟨heirloom.compact, heirloom⟩)) ∧
    ((d.after Rehearsal.House.ungated tenancy).obey Rehearsal.House.ungated
      (.order (.invoke "trunk-ada" "trunk-save_scenario" (.structured [("lid", .null)])))).1 =
        .gave (.result (.ok ⟨heirloom.compact, heirloom⟩)) := by
  have hplain : heirloom.Plain := by
    refine ⟨Table.sorted_of_keys (by decide), ?_⟩
    simp [Json.Plain, Json.PlainFields, Json.PlainItems, Json.int, Number.Whole, Table.Sorted]
  have hfit : (Rehearsal.House.keeper ⟨"trunk.py", none, []⟩).fit loft.shared.remote :=
    ⟨_, if_pos rfl, ⟨⟨_, rfl⟩, ⟨_, rfl⟩⟩, Nat.le_refl _⟩
  have hidle : ∀ n, Table.get? "trunk-ada" ((Desk.mk loft []).after Rehearsal.House.ungated
      [.order (.obtain "trunk-ada")]).pool.registry = some n → ((Desk.mk loft []).after Rehearsal.House.ungated
        [.order (.obtain "trunk-ada")]).pool.isReady n = false := by
    intro n hn
    cases hn
    rfl
  have hload : Names "load_scenario" loadScenario := .bare (by decide)
  have hbare : Names "save_scenario" saveScenario := .bare (by decide)
  have hrouted : Names "trunk-save_scenario" saveScenario := .routed (g := "trunk") (by decide) saveScenario
  have htenancy : ∀ i ∈ tenancy, i.Spares "trunk-ada" := by
    simp only [tenancy, List.forall_mem_cons]
    exact ⟨rfl, fun _ => ⟨_, hload, .inl (by decide)⟩, rfl, fun h => absurd h (by decide),
      fun _ => ⟨_, hrouted, .inr rfl⟩, rfl, show "trunk-bob" ≠ "trunk-ada" by decide, rfl,
      fun _ hi => absurd hi List.not_mem_nil⟩
  obtain ⟨message, d, hloaded, hkept⟩ := Remote.Keeper.restores _ (fun _ _ _ => rfl) (.ofCatalog ..) hfit hplain
    (by decide) rfl rfl [] (by decide) hidle [] true
  have hrecalls := hkept tenancy htenancy
  exact ⟨message, d, hloaded, hrecalls, hrecalls.invoked _ (.text "") [] hbare rfl,
    hrecalls.invoked _ (.structured _) _ hrouted rfl⟩

end SessionPool
