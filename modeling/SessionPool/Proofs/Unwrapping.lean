import SessionPool.Proofs.Spelling
import SessionPool.Proofs.Dealings

/-! Unwrapping: an invocation that loads a state is the load itself. The arguments are taken apart into the
    state and what else there is, and the load puts them together again for the server: those that wrapped a
    state arrive as they were given, and others arrive wrapped. -/

namespace SessionPool
variable {ρ κ : Type}

/-- Taking away what was put under a new key changes nothing. -/
theorem Table.erase_insert {α : Type} {k : String} (v : α) : ∀ {t : Table α}, get? k t = none →
    (t.insert k v).erase k = t
  | [], _ => by rw [insert, erase, if_pos rfl]
  | (j, u) :: t, h => by
    rw [get?] at h
    split at h
    · cases h
    rename_i hne
    rw [insert, if_neg hne]
    split
    · rw [erase, if_pos rfl]
    · rw [erase, if_neg hne, erase_insert v h]

namespace Arguments

/-- Arguments that hold a state, and perhaps others besides it; with the arguments that the server gets. -/
inductive Wraps : Fields → Fields → Fields → Fields → Prop
  /-- The state is an entry of the arguments. -/
  | inside {state extra : Fields} (hextra : Table.get? scenarioKey extra = none) :
      Wraps (extra.insert scenarioKey (.obj state)) state extra (extra.insert scenarioKey (.obj state))
  /-- The state is all of the arguments, and may have an entry of that name if it is no object. -/
  | whole {state : Fields} (hstate : ∀ inner, Table.get? scenarioKey state ≠ some (.obj inner)) :
      Wraps state state [] [(scenarioKey, .obj state)]

variable {fields state extra sent : Fields}

theorem Wraps.split (h : Wraps fields state extra sent) : splitScenario fields = (.obj state, extra) := by
  rw [splitScenario]
  cases h with
  | inside hextra => rw [Table.get?_insert_self, Table.erase_insert _ hextra]
  | whole hstate =>
    split
    · exact absurd ‹_› (hstate _)
    · rfl

/-- The load puts together what was taken apart. -/
theorem Wraps.sent_eq (h : Wraps fields state extra sent) : extra.insert scenarioKey (.obj state) = sent := by
  cases h <;> rfl

end Arguments

/-! ### A result in another form -/

/-- How far a program gets whose result is put in another form. -/
def Program.Progress.map {A : Type} {R : A → Type} {α β : Type} (f : α → β) :
    Program.Progress A R α → Program.Progress A R β
  | .finished x => .finished (f x)
  | .waits rest => .waits (rest >>= fun x => pure (f x))
  | .occupies rest => .occupies (rest >>= fun x => pure (f x))
  | .died => .died

/-- A program goes as far whatever form its result is put in. -/
theorem Program.advance_map {σ A : Type} {R : A → Type} {α β : Type} (host : Host σ A R) (f : α → β) :
    ∀ (c : Program A R α) (s : σ), (c >>= fun x => pure (f x)).advance host s =
      ⟨(c.advance host s).progress.map f, (c.advance host s).state, (c.advance host s).woken⟩ := by
  intro c
  induction c with
  | done x => intro s; rfl
  | act a next ih =>
    intro s
    rw [act_bind, advance, advance]
    cases host a s with
    | went reply s' woken => simp only [ih]
    | waits s' | occupies s' | died s' woken => rfl

namespace Pool
variable {α β : Type} {r : Remote ρ κ}

theorem run_map (f : α → β) (c : Caller α) (p : Pool ρ κ) :
    p.run r (c >>= fun x => pure (f x)) = ((p.run r c).1.map f, (p.run r c).2) := by
  simp only [run, Program.advance_map]

theorem heard_map (f : α → β) (c : Caller α) : ∀ p : Pool ρ κ,
    p.heard r (c >>= fun x => pure (f x)) = p.heard r c := by
  induction c with
  | done x => intro p; rfl
  | act a next ih =>
    intro p
    rw [Program.act_bind, heard, heard]
    cases host r false a p with
    | went reply p' woken => simp only [ih]
    | waits p' | occupies p' | died p' woken => rfl

end Pool

/-! ### What a load sends -/

namespace Station

/-- Whether a load that is not checked may call yet. -/
def mayCall : Station κ → Bool
  | waiting _ => true
  | checking _ _ _ => true
  | looking _ => true
  | connecting _ => true
  | calling _ => true
  | _ => false

variable {st : Station κ} {m : Move κ} {state : Json} {extra : Fields}

/-- The only call of a load that is not checked. -/
theorem called (hst : st.In (.load state extra false)) (hm : st.move = some m) (hcall : m.isCall = true) :
    m = .call loadScenario (extra.insert Arguments.scenarioKey state) ∧ st.mayCall = true := by
  cases st with
  | calling p =>
    cases hm
    obtain rfl | ⟨hno, -⟩ := hst
    · exact ⟨rfl, rfl⟩
    · cases hno
  | ended _ | dead => cases hm
  | _ => cases hm; cases hcall

theorem called_after (hm : st.move = some m) (hcall : m.isCall = true) (reply : m.Reply) :
    (st.after m reply).mayCall = false := by
  cases st with
  | calling p => cases hm; cases reply <;> rfl
  | ended _ | dead => cases hm
  | _ => cases hm; cases hcall

theorem spent_after (hst : st.In (.load state extra false)) (hspent : st.mayCall = false) (hm : st.move = some m)
    (reply : m.Reply) : (st.after m reply).mayCall = false := by
  cases st with
  | logging p text =>
    cases hm
    obtain rfl | ⟨hno, -⟩ := hst
    · rfl
    · cases hno
  | marking _ | leaving _ | retiring | sealing _ => cases hm; rfl
  | parting id client => cases hm; cases client <;> rfl
  | closing id client => cases hm; rfl
  | ended _ | dead => cases hm
  | _ => cases hspent

/-- What a job hears answers the moves of stations where its work may stand. -/
theorem Plays.asked {r : Remote ρ κ} {t : Nat} {s : Session κ} {x : ρ} {e : Play ρ κ} {w : Work}
    (h : st.Plays r t s x e) (hst : st.In w) : ∀ a ∈ e.heard, ∃ st' : Station κ, st'.In w ∧ st'.move = some a.1 := by
  induction h with
  | ended => exact fun a ha => absurd ha List.not_mem_nil
  | own hm _ _ ih => exact ih (in_after hst hm _)
  | hear hm _ _ _ ih =>
    intro a ha
    rcases List.mem_cons.1 ha with rfl | ha
    · exact ⟨_, hst, hm⟩
    · exact ih (in_after hst hm _) a ha
  | dies hm =>
    intro a ha
    obtain rfl := List.mem_singleton.1 ha
    exact ⟨_, hst, hm⟩

end Station

namespace Errand
variable {n : Nat} {path : Path κ} {y : Except PoolError Yield} {state : Json} {extra : Fields}

/-- Moves on a session that call nothing. -/
def Calm (n : Nat) (path : Path κ) : Prop := ∀ d ∈ path, d.1.session = n ∧ d.1.move.isCall = false

theorem Calm.nil : Calm n ([] : Path κ) := nofun

theorem Calm.cons {m : Move κ} {reply : m.Reply} (hm : m.isCall = false) (h : Calm n path) :
    Calm n (⟨⟨n, m⟩, reply⟩ :: path) := by
  intro d hd
  rcases List.mem_cons.1 hd with rfl | hd
  · exact ⟨rfl, hm⟩
  · exact h d hd

/-- A job calls one operation of a session, once, if at all. -/
inductive Delivers (n : Nat) (operation : String) (args : Fields) : Path κ → Prop
  | spared {path : Path κ} (hpath : Calm n path) : Delivers n operation args path
  | called {before after : Path κ} (reply : Except RemoteError String) (hbefore : Calm n before)
      (hafter : Calm n after) : Delivers n operation args (before ++ ⟨⟨n, .call operation args⟩, reply⟩ :: after)

theorem Delivers.cons {operation : String} {args : Fields} {m : Move κ} {reply : m.Reply} (hm : m.isCall = false)
    (h : Delivers n operation args path) : Delivers n operation args (⟨⟨n, m⟩, reply⟩ :: path) := by
  cases h with
  | spared hpath => exact .spared (hpath.cons hm)
  | called answer hbefore hafter => exact .called answer (hbefore.cons hm) hafter

/-- What a load calls that is not checked, from any station on. -/
theorem delivers_of_takes {st : Station κ} (h : st.Takes n path y) (hst : st.In (.load state extra false)) :
    Delivers n loadScenario (extra.insert Arguments.scenarioKey state) path ∧ (st.mayCall = false → Calm n path) := by
  induction h with
  | ended => exact ⟨.spared .nil, fun _ => .nil⟩
  | @move st m reply path y hm later ih =>
    obtain ⟨hdelivers, hspent⟩ := ih (Station.in_after hst hm reply)
    cases hcall : m.isCall with
    | false => exact ⟨hdelivers.cons hcall, fun hno => (hspent (Station.spent_after hst hno hm reply)).cons hcall⟩
    | true =>
      obtain ⟨rfl, hmay⟩ := Station.called hst hm hcall
      refine ⟨.called reply .nil (hspent (Station.called_after hm hcall reply)), fun hno => ?_⟩
      cases hmay.symm.trans hno

end Errand

namespace Caller

/-- A caller asks for the session with an id and sends it one load, if it needs one; the result is the
    outcome of that. -/
inductive Sends (id : String) (state : Json) (extra : Fields) (check : Bool) :
    Path → Except PoolError LoadOutcome → Prop
  | unknown (e : PoolError) : Sends id state extra check [⟨.obtain id, Except.error e⟩] (.error e)
  | spared {n : Nat} {ready : Bool} (o : LoadOutcome) :
      Sends id state extra check [⟨.obtain id, Except.ok (n, ready)⟩] (.ok o)
  | sent {n : Nat} {ready : Bool} {path : Path} {result : Except PoolError Yield}
      (posts : Posts n (.load state extra check) path result) :
      Sends id state extra check (⟨.obtain id, Except.ok (n, ready)⟩ :: path) (result.map Yield.toOutcome)

theorem sends {id : String} {state : Json} {extra : Fields} {check : Bool} {path : Path}
    {y : Except PoolError LoadOutcome} (h : (loadWith id state extra check).Takes path y) :
    Sends id state extra check path y := by
  obtain ⟨reply, rest, rfl, hobtained⟩ := Program.takes_act.1 h
  cases reply with
  | error e =>
    obtain ⟨rfl, rfl⟩ := Program.takes_done.1 hobtained
    exact .unknown e
  | ok found =>
    obtain ⟨n, ready⟩ := found
    change Program.Takes (if ready = true then _ else if isEmptyScenario state = true then _ else _) rest y
      at hobtained
    split at hobtained
    · obtain ⟨rfl, rfl⟩ := Program.takes_done.1 hobtained
      exact .spared _
    split at hobtained
    · obtain ⟨rfl, rfl⟩ := Program.takes_done.1 hobtained
      exact .spared _
    · obtain ⟨result, hposts, rfl⟩ := takes_send_iff.1 hobtained
      exact .sent hposts

end Caller

/-- The outcome of a load as the result of an invocation: its text, and its value. -/
def Normalized.ofLoad (y : Except PoolError LoadOutcome) : Except PoolError Normalized :=
  y.map fun o => ⟨o.text, o.toJson⟩

/-- An invocation is a load, whatever state the pool is in. -/
structure Unwrapped (r : Remote ρ κ) (c : Catalog) (id name : String) (args : Arguments)
    (state extra sent : Fields) : Prop where
  /-- The caller does what the load does, among other callers too. -/
  program : Caller.invoke c id name args =
    Caller.loadWith id (.obj state) extra false >>= fun y => pure (Normalized.ofLoad y)
  /-- It gets as far, with the same result in another form, and leaves the same pool. -/
  run : ∀ p : Pool ρ κ, p.run r (Caller.invoke c id name args) =
    ((p.run r (Caller.loadWith id (.obj state) extra false)).1.map Normalized.ofLoad,
      (p.run r (Caller.loadWith id (.obj state) extra false)).2)
  /-- The servers are told the same. -/
  heard : ∀ p : Pool ρ κ, p.heard r (Caller.invoke c id name args) =
    p.heard r (Caller.loadWith id (.obj state) extra false)
  /-- It sends one load at most. -/
  sends : ∀ path y, (Caller.invoke c id name args).Takes path y →
    ∃ z, Caller.Sends id (.obj state) extra false path z ∧ y = Normalized.ofLoad z
  /-- Of which the server gets these arguments, whatever the state of the session. -/
  delivers : ∀ n path y, (Errand.ofWork n (.load (.obj state) extra false) : Errand κ _).Takes path y →
    Errand.Delivers n loadScenario sent path
  /-- So that is what is heard, between two commands and on servers that hold no call up. -/
  hears : r.Prompt → ∀ p : Pool ρ κ, p.Quiet → ∀ h ∈ p.heard r (Caller.invoke c id name args),
    h.move.isCall = true → h.move = .call loadScenario sent
  /-- And it returns then. -/
  returns : r.Prompt → ∀ p : Pool ρ κ, p.Quiet → ∃ z p',
    p.run r (Caller.loadWith id (.obj state) extra false) = (.finished z, p') ∧
      p.run r (Caller.invoke c id name args) = (.finished (Normalized.ofLoad z), p')

section
variable {A : Type} {R : A → Type} {α β : Type}

/-- The way to an end is the same whatever form the result is put in. -/
theorem Program.takes_map {f : α → β} {path : List ((a : A) × R a)} {y : β} : ∀ {c : Program A R α},
    (c >>= fun x => pure (f x)).Takes path y → ∃ x, c.Takes path x ∧ y = f x
  | .done x, h => by
    obtain ⟨rfl, rfl⟩ := Program.takes_done.1 h
    exact ⟨x, .done x, rfl⟩
  | .act a next, h => by
    obtain ⟨reply, rest, rfl, later⟩ := Program.takes_act.1 h
    obtain ⟨x, hx, rfl⟩ := takes_map later
    exact ⟨x, .act hx, rfl⟩

end

/-- A load that is not checked calls nothing else. -/
theorem Loads.asks {r : Remote ρ κ} {f f' : Front ρ κ} {id : String} {state : Json} {extra : Fields}
    {y : Except PoolError LoadOutcome} {ds : List (Deal κ)} (h : Loads f id state extra false y ds)
    (hdeals : Front.Deals r f ds f') : ∀ a ∈ ds.flatMap Deal.heard, a.move.isCall = true →
      a.move = .call loadScenario (extra.insert Arguments.scenarioKey state) := by
  cases h with
  | unknown | already | empty => exact fun a ha => absurd ha List.not_mem_nil
  | sent _ _ hsent =>
    obtain ⟨-, rfl, rfl⟩ | ⟨result, heard, -, rfl, rfl⟩ := hsent.inversion
    · exact fun a ha => absurd ha List.not_mem_nil
    obtain _ | ⟨-, _ | ⟨job, -⟩⟩ := hdeals
    cases job with
    | worked _ _ plays _ =>
      intro a ha hcall
      rw [List.flatMap_cons, List.flatMap_cons, List.flatMap_nil, List.append_nil] at ha
      obtain ⟨w, hw, rfl⟩ := List.mem_map.1 ha
      obtain ⟨st, hst, hm⟩ := plays.asked rfl w hw
      exact (Station.called hst hm hcall).1

/-- Loading by an invocation is loading. -/
theorem Arguments.Wraps.unwrapped {fields state extra sent : Fields} (h : Wraps fields state extra sent)
    {args : Arguments} {name : String} (hargs : args.fields = .ok fields)
    (hload : isLoad (operationName name) = true) (r : Remote ρ κ) (c : Catalog) (id : String) :
    Unwrapped r c id name args state extra sent := by
  have hprogram : Caller.invoke c id name args =
      Caller.loadWith id (.obj state) extra false >>= fun y => pure (Normalized.ofLoad y) := by
    rw [Caller.invoke, hargs]
    simp only [hload, if_true, h.split]
    rfl
  rw [← h.sent_eq]
  exact {
    program := hprogram
    run := fun p => by rw [hprogram, Pool.run_map]
    heard := fun p => by rw [hprogram, Pool.heard_map]
    sends := fun path y htakes => by
      rw [hprogram] at htakes
      obtain ⟨z, hz, rfl⟩ := Program.takes_map htakes
      exact ⟨z, Caller.sends hz, rfl⟩
    delivers := fun n path y htakes =>
      (Errand.delivers_of_takes ((Errand.ofWork_follows n _).takes_iff.1 htakes) rfl).1
    hears := fun hr p hp => by
      obtain ⟨z, ds, p', hruns, -, hloads⟩ := hp.runs_loadWith hr id (.obj state) extra false
      rw [hprogram, Pool.heard_map, hruns.heard]
      exact hloads.asks hruns.deals
    returns := fun hr p hp => by
      obtain ⟨z, ds, p', hruns, -, -⟩ := hp.runs_loadWith hr id (.obj state) extra false
      refine ⟨z, p', hruns.run, ?_⟩
      rw [hprogram, Pool.run_map, hruns.run]
      rfl }

/-- A state that is wrapped, with an argument besides it, and one that has an entry of that name itself. -/
theorem unwrapped_counter :
    Unwrapped clerk counter.catalog "shop-1" "shop-load_scenario"
      (.text "\x7b\"scenario\": \x7b\"stock\": 2\x7d, \"dry\": true\x7d") [("stock", .int 2)] [("dry", .bool true)]
      [("dry", .bool true), ("scenario", .obj [("stock", .int 2)])] ∧
    Unwrapped clerk counter.catalog "shop-1" "load_scenario_now" (.structured [("scenario", .str "sale")])
      [("scenario", .str "sale")] [] [("scenario", .obj [("scenario", .str "sale")])] := by
  have hsale : ∀ inner, Table.get? Arguments.scenarioKey [("scenario", Json.str "sale")] ≠ some (.obj inner) := by
    intro inner
    rw [Table.get?, if_pos (by decide)]
    rintro ⟨⟩
  exact ⟨Arguments.Wraps.unwrapped (.inside rfl) rfl (by decide) clerk counter.catalog "shop-1",
    Arguments.Wraps.unwrapped (.whole hsale) rfl (by decide) clerk counter.catalog "shop-1"⟩

end SessionPool
