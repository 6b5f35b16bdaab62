import SessionPool.Proofs.Account
import SessionPool.Proofs.Readiness

/-! Recall: all sessions are asked for their states, one after the other. Each is asked once, by an attempt to
    call the operation that tells the state, and what it tells is put beside its id: the value of the text, or
    the text, or nothing if there is none. What becomes of one attempt concerns the other sessions only as far
    as the servers themselves tell. Nobody comes or goes meanwhile, and a session is as ready as before, unless
    its group has no state. -/

namespace SessionPool
variable {ρ κ : Type}

/-- The state that an answer tells: what its text is read as, or the text itself if it cannot be read. -/
def Answer.state : Answer → Json
  | replied (.ok text) =>
    match Json.parse text with
    | .ok v => v
    | .error _ => .str text
  | _ => .null

theorem Answer.told?_told (answer : Answer) : told? answer.told = answer.state := by
  cases answer with
  | died => rfl
  | replied reply => cases reply <;> rfl

/-- What comes of asking a session for its state: an attempt to call the operation that tells it, unless the
    worker has ended. -/
inductive Recalls (r : Remote ρ κ) (ended : Bool) (s : Session κ) (x : ρ) : Attempt ρ κ → Prop
  | refused (hended : ended = true) :
      Recalls r ended s x { heard := [], answer := .died, client := s.client, remote := x }
  | tried {a : Attempt ρ κ} (hended : ended = false) (attempts : Attempts r s.locator x saveScenario [] s.client a) :
      Recalls r ended s x a

/-- An operation is called once at most. -/
theorem Attempts.calls_le_one {r : Remote ρ κ} {l : Locator} {x : ρ} {operation : String} {args : Fields}
    {client? : Option κ} {a : Attempt ρ κ} (h : Attempts r l x operation args client? a) :
    a.heard.countP (fun w => w.1.isCall) ≤ 1 ∧ ∀ w ∈ a.heard, w.1.isCall = true → w.1 = .call operation args := by
  cases h <;> simp [Move.isCall]

theorem Recalls.calls_le_one {r : Remote ρ κ} {ended : Bool} {s : Session κ} {x : ρ} {a : Attempt ρ κ}
    (h : Recalls r ended s x a) : a.heard.countP (fun w => w.1.isCall) ≤ 1 ∧
      ∀ w ∈ a.heard, w.1.isCall = true → w.1 = .call saveScenario [] := by
  cases h with
  | refused => exact ⟨Nat.zero_le _, nofun⟩
  | tried _ attempts => exact attempts.calls_le_one

/-- What is heard of one session is of that session only. -/
theorem countP_placed (q : Move κ → Bool) (heard : List (Move κ × Word κ)) (n : Nat) (id j : String) :
    (heard.map fun w => (⟨n, id, w.1, w.2⟩ : Heard κ)).countP (fun h => h.session = j && q h.move) =
      if id = j then heard.countP (fun w => q w.1) else 0 := by
  rw [List.countP_map]
  split
  · rename_i heq
    simp [Function.comp_def, heq]
  · rename_i hne
    simp [Function.comp_def, hne]

/-- A session that is asked for its state, by its id and its place, and what comes of it. -/
structure Recall (ρ κ : Type) where
  id : String
  place : Nat
  attempt : Attempt ρ κ

namespace Recall

/-- What is heard, with where. -/
def words (d : Recall ρ κ) : List (Heard κ) := d.attempt.heard.map fun w => ⟨d.place, d.id, w.1, w.2⟩

/-- What is logged: the call, if it succeeds. -/
def entries (d : Recall ρ κ) : List (String × LogEntry) :=
  (d.attempt.answer.logged saveScenario []).map fun e => (d.id, e)

/-- The session then. -/
def after (c : Catalog) (d : Recall ρ κ) (s : Session κ) : Session κ :=
  { s with ready := s.ready || c.isStateless (SessionKey.parse d.id).group, client := d.attempt.client }

theorem countP_words (d : Recall ρ κ) (id : String) :
    d.words.countP (fun h => h.session = id && h.move.isCall) =
      if d.id = id then d.attempt.heard.countP (fun w => w.1.isCall) else 0 :=
  countP_placed Move.isCall d.attempt.heard d.place d.id id

/-- Recalls of the sessions of a table, each at its place. -/
theorem map_eq : ∀ {rs : List (Recall ρ κ)} {t : Table Nat}, rs.map id = Table.keys t →
    (∀ d ∈ rs, ∀ e ∈ t, d.id = e.1 → d.place = e.2) → rs.map (fun d => (d.id, d.place)) = t
  | [], [], _, _ => rfl
  | d :: rs, e :: t, hids, hplaces => by
    obtain ⟨hid, hids⟩ := List.cons.inj hids
    rw [List.map_cons, hplaces d List.mem_cons_self e List.mem_cons_self hid, hid, map_eq hids fun d hd e he =>
      hplaces d (List.mem_cons_of_mem _ hd) e (List.mem_cons_of_mem _ he)]

/-- No session is called twice if none is asked twice. -/
theorem calls_le_one (id : String) : ∀ {rs : List (Recall ρ κ)}, (rs.map Recall.id).Nodup →
    (∀ d ∈ rs, d.attempt.heard.countP (fun w => w.1.isCall) ≤ 1) →
    (rs.flatMap words).countP (fun h => h.session = id && h.move.isCall) ≤ 1
  | [], _, _ => Nat.zero_le _
  | d :: rs, hnodup, h => by
    obtain ⟨hnew, hnodup⟩ := List.nodup_cons.1 hnodup
    rw [List.flatMap_cons, List.countP_append, countP_words]
    split
    · rename_i heq
      have hrest : (rs.flatMap words).countP (fun h => h.session = id && h.move.isCall) = 0 := by
        refine List.countP_eq_zero.2 fun a ha => ?_
        obtain ⟨d', hd', ha⟩ := List.mem_flatMap.1 ha
        obtain ⟨w, -, rfl⟩ := List.mem_map.1 ha
        have hne : d'.id ≠ id := fun heq' => hnew (heq.trans heq'.symm ▸ List.mem_map_of_mem hd')
        simp [hne]
      rw [hrest]
      exact h d List.mem_cons_self
    · rw [Nat.zero_add]
      exact calls_le_one id hnodup fun d hd => h d (List.mem_cons_of_mem _ hd)

end Recall

/-- Sessions are asked one after the other, each at its place. -/
abbrev RecallsEach (r : Remote ρ κ) (ended : Bool) : List (Session κ) → ρ → List (Recall ρ κ) → ρ → Prop :=
  Rounds (fun s x d x' => s.id = d.id ∧ Recalls r ended s x d.attempt ∧ d.attempt.remote = x') Recall.place

/-- A call on a live session makes no session. -/
theorem Calls.registry {r : Remote ρ κ} {f f' : Front ρ κ} {id operation : String} {args : Fields} {n : Nat}
    {y : Except PoolError Normalized} {ds : List (Deal κ)} (h : Calls f id operation args y ds)
    (hdeals : Front.Deals r f ds f') (hn : Table.get? id f.registry = some n) : f'.registry = f.registry := by
  have hmem := fun d hd => h.mem (d := d) hd
  clear h
  induction hdeals with
  | none => rfl
  | @next f f₁ f' d ds first _ ih =>
    have hsame : f₁.registry = f.registry := by
      rcases hmem d List.mem_cons_self with ⟨m, rfl⟩ | ⟨m, rfl, -⟩ | ⟨m, result, heard, rfl⟩
      · cases first with
        | found => rfl
        | made hnone => cases hn.symm.trans hnone
      · cases first
        rfl
      · cases first
        rfl
    refine (ih (hsame ▸ hn) fun d hd => ?_).trans hsame
    rw [first.catalog]
    exact hmem d (List.mem_cons_of_mem _ hd)

/-- A live session is asked for its state. -/
theorem Calls.recalls {r : Remote ρ κ} {f f' : Front ρ κ} {id : String} {n : Nat} {s : Session κ}
    {y : Except PoolError Normalized} {ds : List (Deal κ)} (h : Calls f id saveScenario [] y ds)
    (hdeals : Front.Deals r f ds f') (ht : f.Tidy) (ho : f.Open) (hn : Table.get? id f.registry = some n)
    (hs : f.shared.sessions[n]? = some s) : ∃ a, Recalls r f.ended s f.shared.remote a ∧ y = a.answer.told ∧
      ds.flatMap Deal.heard = Recall.words ⟨id, n, a⟩ ∧
      f.Leads id n (Recall.after f.catalog ⟨id, n, a⟩ s) (a.answer.logged saveScenario []) a.remote f' := by
  cases hended : f.ended with
  | false =>
    obtain ⟨a, hattempts, hy, hheard, hleads⟩ := h.attempts hdeals hended ht ho (.live hn hs)
    exact ⟨a, .tried rfl hattempts, hy, hheard, hleads⟩
  | true =>
    refine ⟨_, .refused rfl, ?_⟩
    have hlive : f.Admits id n s := .live hn hs
    cases h with
    | unknown hnone => cases hn.symm.trans hnone
    | plain hready hsent =>
      rw [hended] at hsent
      cases hsent
      obtain _ | ⟨first, ⟨⟩⟩ := hdeals
      obtain ⟨rfl, hleads⟩ := hlive.leads first
      refine ⟨rfl, rfl, ?_⟩
      have hsame : (s.ready || f.catalog.isStateless (SessionKey.parse id).group) = s.ready := by
        rw [hlive.isReady] at hready
        rcases hready with hready | hstateful
        · rw [hready, Bool.true_or]
        · rw [hstateful, Bool.or_false]
      rw [Recall.after, hsame]
      exact hleads
    | stateless hstateless hsent =>
      rw [hended] at hsent
      cases hsent
      obtain _ | ⟨first, _ | ⟨mark, ⟨⟩⟩⟩ := hdeals
      obtain ⟨rfl, hleads⟩ := hlive.leads first
      obtain ⟨-, hleads⟩ := hleads.marked mark
      refine ⟨rfl, rfl, ?_⟩
      rw [Recall.after, hstateless, Bool.or_true]
      exact hleads

namespace Front
variable {r : Remote ρ κ} {f f' f₁ : Front ρ κ} {id : String} {ids : List String} {n : Nat} {t : Table Json}
  {heard heard' : List (Heard κ)} {rs : List (Recall ρ κ)} {s : Session κ} {a : Attempt ρ κ}

/-- What comes of asking sessions for their states: what is told, what is heard, and the pool then. -/
structure Recalled (r : Remote ρ κ) (f : Front ρ κ) (ids : List String) (t : Table Json) (heard : List (Heard κ))
    (rs : List (Recall ρ κ)) (f' : Front ρ κ) : Prop where
  asked : rs.map Recall.id = ids
  places : ∀ d ∈ rs, Table.get? d.id f.registry = some d.place
  told : t = rs.map fun d => (d.id, d.attempt.answer.state)
  heard_eq : heard = rs.flatMap Recall.words
  recalls : RecallsEach r f.ended f.shared.sessions f.shared.remote rs f'.shared.remote
  log : f'.shared.log = f.shared.log.note (rs.flatMap Recall.entries)
  registry : f'.registry = f.registry
  slots : ∀ d ∈ rs, ∀ s, f.shared.sessions[d.place]? = some s →
    f'.shared.sessions[d.place]? = some (d.after f.catalog s)
  others : ∀ m, (∀ d ∈ rs, d.place ≠ m) → f'.shared.sessions[m]? = f.shared.sessions[m]?

theorem Recalled.none : Recalled r f [] [] [] [] f where
  asked := rfl
  places := nofun
  told := rfl
  heard_eq := rfl
  recalls := .none
  log := rfl
  registry := rfl
  slots := nofun
  others _ _ := rfl

/-- All sessions of a registry are asked, each at its place. -/
theorem Recalled.all (h : Recalled r f (Table.keys f.registry) t heard rs f') (ht : f.Tidy) :
    rs.map (fun d => (d.id, d.place)) = f.registry := by
  refine Recall.map_eq h.asked fun d hd e he hid => ?_
  have hplace := h.places d hd
  rw [hid, Table.Sorted.get?_of_mem ht.sorted he] at hplace
  exact (Option.some.inj hplace).symm

/-- One more session is asked before others. -/
theorem Recalled.next (ht : f.Tidy) (hn : Table.get? id f.registry = some n)
    (hs : f.shared.sessions[n]? = some s) (hnew : id ∉ ids) (first : Recalls r f.ended s f.shared.remote a)
    (hregistry : f₁.registry = f.registry) (hheard : heard = Recall.words ⟨id, n, a⟩)
    (leads : f.Leads id n (Recall.after f.catalog ⟨id, n, a⟩ s) (a.answer.logged saveScenario []) a.remote f₁)
    (h : Recalled r f₁ ids t heard' rs f') :
    Recalled r f (id :: ids) ((id, a.answer.state) :: t) (heard ++ heard') (⟨id, n, a⟩ :: rs) f' := by
  -- The others are other sessions, and the first attempt leaves them as they are.
  have hapart : ∀ d ∈ rs, d.place ≠ n := by
    intro d hd heq
    have hplace := h.places d hd
    rw [hregistry, heq] at hplace
    have hid : d.id ∈ ids := h.asked ▸ List.mem_map_of_mem hd
    exact hnew (ht.inj hplace hn ▸ hid)
  have hsame : ∀ d ∈ rs, f₁.shared.sessions[d.place]? = f.shared.sessions[d.place]? :=
    fun d hd => leads.others _ (hapart d hd)
  obtain ⟨s', hs', hid⟩ := ht.named id n hn
  cases hs.symm.trans hs'
  exact {
    asked := congrArg (id :: ·) h.asked
    places := by
      rintro d (_ | ⟨_, hd⟩)
      · exact hn
      · exact hregistry ▸ h.places d hd
    told := by rw [h.told, List.map_cons]
    heard_eq := by rw [hheard, h.heard_eq, List.flatMap_cons]
    recalls := by
      have hlater := h.recalls.congr hsame
      rw [leads.running, leads.remote] at hlater
      exact .next hs ⟨hid, first, rfl⟩ hlater
    log := by
      rw [h.log, leads.log, CallLog.write_eq_note, List.flatMap_cons, CallLog.note, CallLog.note, CallLog.note,
        List.foldl_append]
      rfl
    registry := h.registry.trans hregistry
    slots := by
      rintro d (_ | ⟨_, hd⟩) s₀ hs₀
      · cases hs.symm.trans hs₀
        exact (h.others n hapart).trans leads.session
      · rw [← leads.catalog]
        exact h.slots d hd s₀ ((hsame d hd).trans hs₀)
    others := fun m hm => (h.others m fun d hd => hm d (List.mem_cons_of_mem _ hd)).trans
      (leads.others m (hm _ List.mem_cons_self).symm) }

end Front

/-- Live sessions are asked for their states, one after the other. -/
theorem Saves.recalled {r : Remote ρ κ} {f f' : Front ρ κ} {ids : List String} {t : Table Json}
    {ds : List (Deal κ)} (h : Saves r f ids t ds f') (ht : f.Tidy) (ho : f.Open) (hnodup : ids.Nodup)
    (hids : ∀ id ∈ ids, ∃ n, Table.get? id f.registry = some n) :
    ∃ rs, f.Recalled r ids t (ds.flatMap Deal.heard) rs f' := by
  induction h with
  | none => exact ⟨[], .none⟩
  | @next f f₁ f' id ids y t ds ds' calls deals _ ih =>
    obtain ⟨hnew, hnodup⟩ := List.nodup_cons.1 hnodup
    obtain ⟨n, hn⟩ := hids id List.mem_cons_self
    obtain ⟨s, hs, -⟩ := ht.named id n hn
    have hregistry := calls.registry deals hn
    obtain ⟨a, hrecalls, rfl, hheard, hleads⟩ := calls.recalls deals ht ho hn hs
    obtain ⟨rs, hrest⟩ := ih (deals.tidy ht) (deals.isOpen ht ho) hnodup
      fun j hj => hregistry ▸ hids j (List.mem_cons_of_mem _ hj)
    rw [List.flatMap_append, Answer.told?_told]
    exact ⟨_, .next ht hn hs hnew hrecalls hregistry hheard hleads hrest⟩

namespace Pool

/-- All sessions of a pool were asked for their states. -/
structure Recalled (r : Remote ρ κ) (p : Pool ρ κ) (rs : List (Recall ρ κ)) (p' : Pool ρ κ) : Prop where
  /-- Each live session is asked once, in the order of the ids. -/
  all : rs.map (fun d => (d.id, d.place)) = p.registry
  /-- Beside each id stands what its own session has told. -/
  run : p.run r (Caller.saveAll p.catalog) =
    (.finished (rs.map fun d => (d.id, d.attempt.answer.state)), p')
  recalls : RecallsEach r p.worker.ended p.shared.sessions p.shared.remote rs p'.shared.remote
  heard : p.heard r (Caller.saveAll p.catalog) = rs.flatMap Recall.words
  /-- No session is called more than once, and nothing else is called. -/
  once : ∀ id, (p.heard r (Caller.saveAll p.catalog)).countP (fun h => h.session = id && h.move.isCall) ≤ 1
  only : ∀ h ∈ p.heard r (Caller.saveAll p.catalog), h.move.isCall = true → h.move = .call saveScenario []
  /-- The calls that succeed are logged. -/
  log : p'.shared.log = p.shared.log.note (rs.flatMap Recall.entries)
  registry : p'.registry = p.registry
  /-- A session keeps what it is, but for its client, and is ready then if its group has no state. -/
  slots : ∀ d ∈ rs, ∃ s, p.shared.sessions[d.place]? = some s ∧
    p'.shared.sessions[d.place]? = some (d.after p.catalog s)
  others : ∀ m, (∀ d ∈ rs, d.place ≠ m) → p'.shared.sessions[m]? = p.shared.sessions[m]?

variable {r : Remote ρ κ} {p : Pool ρ κ}

theorem Orderly.recalled (h : p.Orderly) (hr : r.Prompt) : ∃ rs p', Recalled r p rs p' ∧ p'.Orderly := by
  obtain ⟨t, ds, p', hruns, hquiet, hsaves⟩ := Quiet.runs_saveEach hr p.catalog (Table.keys p.registry) h.quiet rfl
  have hids : p.Runs r (Caller.act .ids) (Table.keys p.registry) [] p := .ask rfl rfl .none rfl
  have hall : p.Runs r (Caller.saveAll p.catalog) t ds p' := hids.bind hruns
  have hnodup := h.quiet.tidy.sorted.keys_nodup
  obtain ⟨rs, hrecalled⟩ := hsaves.recalled h.quiet.tidy h.isOpen hnodup fun id hid =>
    Option.isSome_iff_exists.1 ((Table.mem_keys_iff h.quiet.tidy.sorted).1 hid)
  have hheard := hall.heard.trans hrecalled.heard_eq
  refine ⟨rs, p', ?_, hquiet, hall.deals.isOpen h.quiet.tidy h.isOpen⟩
  exact {
    all := hrecalled.all h.quiet.tidy
    run := hrecalled.told ▸ hall.run
    recalls := hrecalled.recalls
    heard := hheard
    once := fun id => by
      rw [hheard]
      refine Recall.calls_le_one id (hrecalled.asked ▸ hnodup) fun d hd => ?_
      obtain ⟨_, _, _, _, -, hrecalls, -⟩ := hrecalled.recalls.mem hd
      exact hrecalls.calls_le_one.1
    only := fun a ha hcall => by
      rw [hheard] at ha
      obtain ⟨d, hd, ha⟩ := List.mem_flatMap.1 ha
      obtain ⟨w, hw, rfl⟩ := List.mem_map.1 ha
      obtain ⟨_, _, _, _, -, hrecalls, -⟩ := hrecalled.recalls.mem hd
      exact hrecalls.calls_le_one.2 w hw hcall
    log := hrecalled.log
    registry := hrecalled.registry
    slots := fun d hd => by
      obtain ⟨s, _, _, hs, -⟩ := hrecalled.recalls.mem hd
      exact ⟨s, hs, hrecalled.slots d hd s hs⟩
    others := hrecalled.others }

end Pool

end SessionPool
