import SessionPool.Proofs.Rest

/-! Visits: what a caller gets from one session, and what is left of it. While a pool is at rest a request
    on a session depends on that session alone, so each is a function from the live session, if there is
    one, to the result and the live session afterwards. -/

namespace SessionPool
variable {ρ κ : Type}

/-- What a visit gives, and the live session then. -/
abbrev Visit (κ α : Type) := Option (Session κ) → α × Option (Session κ)

namespace Visit
variable (r : Remote ρ κ) (x : ρ) (c : Catalog) (id : String)

/-- A visit to the session that the caller gets under the id, if it gets one. -/
def entered {α : Type} (visit : Session κ → Except PoolError α × Session κ) :
    Visit κ (Except PoolError α) := fun v =>
  match c.enter id v with
  | .error e => (.error e, v)
  | .ok s => ((visit s).1, some (visit s).2)

/-- What work comes to on a session, with its result read. -/
def did {α : Type} (v : Work) (read : Yield → α) (s : Session κ) : Except PoolError α × Session κ :=
  ((s.verdict r x v).1.map read, (s.verdict r x v).2)

def loadWith (state : Json) (extra : Fields) (verify : Bool) : Visit κ (Except PoolError LoadOutcome) :=
  entered c id fun s =>
    if s.ready then (.ok .alreadyInitialized, s)
    else if isEmptyScenario state then (.ok .emptyScenario, s)
    else did r x (.load state extra verify) Yield.toOutcome s

/-- A session whose group has no state is ready when it is called. -/
def call (operation : String) (args : Fields) : Visit κ (Except PoolError Normalized) :=
  entered c id fun s =>
    did r x (.call operation args) Yield.normalized
      (if !s.ready && c.isStateless (SessionKey.parse id).group then { s with ready := true } else s)

def invoke (name : String) (args : Arguments) : Visit κ (Except PoolError Normalized) := fun v =>
  match args.fields with
  | .error e => (.error e, v)
  | .ok fields =>
    if isLoad (operationName name) then
      let (result, v) := loadWith r x c id (Arguments.splitScenario fields).1
        (Arguments.splitScenario fields).2 false v
      (result.map Normalized.ofOutcome, v)
    else call r x c id (operationName name) fields v

/-- A closed session is not live any more, even if its client does not close. -/
def close : Visit κ (Except PoolError Bool)
  | none => (.ok false, none)
  | some s =>
    match (s.verdict r x .release).1 with
    | .ok _ => (.ok true, none)
    | .error e => (.error (e.toClose id), none)

theorem close_leaves (v : Option (Session κ)) : (close r x id v).2 = none := by
  cases v with
  | none => rfl
  | some s =>
    rw [close]
    split <;> rfl

end Visit

/-- A caller does with the session under an id what a visit says, in every pool over a catalog that is at
    rest. -/
def Caller.Visits {α : Type} (r : Remote ρ κ) (c : Catalog) (id : String) (caller : Caller α)
    (visit : Visit κ α) : Prop :=
  ∀ p : Pool ρ κ, p.Rest → p.catalog = c →
    ∃ p', p.run r caller = (.finished (visit (p.session? id)).1, p') ∧
      p.Serves p' id (visit (p.session? id)).2

namespace Caller
variable {α : Type} {r : Remote ρ κ} {c : Catalog} {id : String}

theorem visits_obtain {next : (Ask.obtain id).Reply → Caller (Except PoolError α)}
    {visit : Session κ → Except PoolError α × Session κ}
    (herror : ∀ e, next (.error e) = .done (.error e))
    (hok : ∀ (p : Pool ρ κ) n s, p.Rest → p.catalog = c → Table.get? id p.registry = some n →
      p.shared.sessions[n]? = some s →
      ∃ p', p.run r (next (.ok (n, s.ready))) = (.finished (visit s).1, p') ∧
        p.Serves p' id (some (visit s).2)) :
    Visits r c id (Program.act (.obtain id) next) (Visit.entered c id visit) := by
  intro p h hc
  subst hc
  rw [Visit.entered]
  cases he : p.catalog.enter id (p.session? id) with
  | error e =>
    have hanswer : p.answer (.obtain id) = .went (.error e) p [] := by
      simp only [Pool.answer, Pool.obtain_error h he]
    refine ⟨p, ?_, h.serves id⟩
    rw [Pool.run_answer rfl hanswer, herror]
    rfl
  | ok s =>
    obtain ⟨n, p₁, hobtain, hserves, hn, hs⟩ := Pool.obtain_ok h he
    have hanswer : p.answer (.obtain id) = .went (.ok (n, s.ready)) p₁ [] := by
      simp only [Pool.answer, hobtain]
    obtain ⟨p₂, hrun, hserves'⟩ := hok p₁ n s hserves.rest hserves.catalog hn hs
    refine ⟨p₂, ?_, hserves.trans hserves'⟩
    rw [Pool.run_answer rfl hanswer]
    exact hrun

theorem loadWith_visits (hr : r.Independent) (x : ρ) (state : Json) (extra : Fields) (verify : Bool) :
    Visits r c id (loadWith id state extra verify) (Visit.loadWith r x c id state extra verify) := by
  refine visits_obtain (fun e => rfl) fun p n s h hc hn hs => ?_
  have hlive : p.session? id = some s := by rw [Pool.session?, hn, Option.bind_some, hs]
  by_cases hready : s.ready = true
  · rw [if_pos hready]
    refine ⟨p, ?_, hlive ▸ h.serves id⟩
    rw [hready]
    rfl
  · rw [if_neg hready]
    by_cases hempty : isEmptyScenario state = true
    · rw [if_pos hempty]
      refine ⟨p, ?_, hlive ▸ h.serves id⟩
      simp only [hready, hempty]
      rfl
    · rw [if_neg hempty]
      obtain ⟨p', hrun, hserves⟩ := Pool.run_send_live hr x h hn hs (.load state extra verify)
      refine ⟨p', ?_, hserves⟩
      simp only [hready, hempty]
      exact Pool.run_bind hrun

theorem call_visits (hr : r.Independent) (x : ρ) (operation : String) (args : Fields) :
    Visits r c id (call c id operation args) (Visit.call r x c id operation args) := by
  refine visits_obtain (fun e => rfl) fun p n s h hc hn hs => ?_
  by_cases hstateless : (!s.ready && c.isStateless (SessionKey.parse id).group) = true
  · rw [if_pos hstateless]
    obtain ⟨hserves, hn', hs'⟩ := Pool.markReady_serves h hn hs
    obtain ⟨p', hrun, hserves'⟩ := Pool.run_send_live hr x hserves.rest hn' hs' (.call operation args)
    refine ⟨p', ?_, hserves.trans hserves'⟩
    have hanswer : p.answer (.markReady id) = .went () (p.markReady id) [] := rfl
    refine (congrArg (fun caller => p.run r caller) (if_pos hstateless)).trans ?_
    exact (Pool.run_answer rfl hanswer).trans (Pool.run_bind hrun)
  · rw [if_neg hstateless]
    obtain ⟨p', hrun, hserves⟩ := Pool.run_send_live hr x h hn hs (.call operation args)
    refine ⟨p', ?_, hserves⟩
    refine (congrArg (fun caller => p.run r caller) (if_neg hstateless)).trans ?_
    exact Pool.run_bind hrun

theorem invoke_visits (hr : r.Independent) (x : ρ) (name : String) (args : Arguments) :
    Visits r c id (invoke c id name args) (Visit.invoke r x c id name args) := by
  intro p h hc
  rw [invoke, Visit.invoke]
  cases args.fields with
  | error e => exact ⟨p, rfl, h.serves id⟩
  | ok fields =>
    by_cases hload : isLoad (operationName name) = true
    · obtain ⟨p', hrun, hserves⟩ := loadWith_visits hr x (Arguments.splitScenario fields).1
        (Arguments.splitScenario fields).2 false p h hc
      simp only [hload, if_true]
      exact ⟨p', Pool.run_bind hrun, hserves⟩
    · simp only [hload]
      exact call_visits hr x (operationName name) fields p h hc

theorem close_visits (hr : r.Independent) (x : ρ) : Visits r c id (close id) (Visit.close r x id) := by
  intro p h hc
  have hanswer : p.answer (.remove id) =
      .went (Table.get? id p.registry) { p with registry := p.registry.erase id } [] := rfl
  have hremoved := h.removed id
  cases hn : Table.get? id p.registry with
  | none =>
    have hnone : p.session? id = none := by rw [Pool.session?, hn, Option.bind_none]
    rw [hn] at hanswer
    rw [hnone]
    exact ⟨_, Pool.run_answer rfl hanswer, hremoved⟩
  | some n =>
    obtain ⟨s, hs, -, hlive⟩ := h.session_of_get? hn
    rw [hn] at hanswer
    rw [hlive, Visit.close]
    obtain ⟨p', hrun, hrest, hcatalog, hregistry, hsessions⟩ :=
      Pool.run_send hr x hremoved.rest hs .release
    -- The registry does not name the place any more.
    have hgone : ∀ j, Table.get? j (p.registry.erase id) ≠ some n := by
      intro j
      by_cases hj : j = id
      · rw [hj, Table.get?_erase_self h.sorted]
        exact (Option.some_ne_none n).symm
      · rw [Table.get?_erase_of_ne hj]
        exact h.ne_of_get? hj hn
    have hserves : p.Serves p' id none := by
      refine ⟨hrest, hcatalog.trans hremoved.catalog, ?_, fun j hj => ?_⟩
      · exact (Pool.session?_set hregistry hsessions (hgone id)).trans hremoved.here
      · exact (Pool.session?_set hregistry hsessions (hgone j)).trans (hremoved.others j hj)
    cases hresult : (s.verdict r x .release).1 with
    | ok y =>
      rw [hresult] at hrun
      exact ⟨p', (Pool.run_answer rfl hanswer).trans (Pool.run_bind hrun), hserves⟩
    | error e =>
      rw [hresult] at hrun
      exact ⟨p', (Pool.run_answer rfl hanswer).trans (Pool.run_bind hrun), hserves⟩

end Caller
end SessionPool
