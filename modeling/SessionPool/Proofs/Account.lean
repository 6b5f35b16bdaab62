import SessionPool.Proofs.Logbook
import SessionPool.Proofs.Routing

/-! Accounts: what an invocation does, all told. It is refused for its arguments, then for the group of its
    session, and leaves everything as it was; and a load apart, whatever is not refused is an attempt to call
    one operation on one session, of which every effect is known: what is heard, what the caller is told, what
    is logged, and the session then. A pool is taken as it is between two commands. -/

namespace SessionPool
variable {ρ κ : Type}

namespace Answer

/-- What the caller of an operation is told of an answer; of work that dies nothing comes but word of that. -/
def told : Answer → Except PoolError Normalized
  | replied reply => (reply.mapError RemoteError.toPool).map .ofText
  | died => .error .workerClosed

/-- What a job comes to that is answered so, unless it dies. -/
def yield : Answer → Option (Except PoolError Yield)
  | replied reply => some ((reply.mapError RemoteError.toPool).map .text)
  | died => none

theorem told_eq (answer : Answer) :
    (answer.yield.getD (.error .workerClosed)).map Yield.normalized = answer.told := by
  cases answer with
  | died => rfl
  | replied reply => cases reply <;> rfl

/-- What is logged of the answer to a call: its text, if it has one. -/
def logged (operation : String) (args : Fields) : Answer → List LogEntry
  | replied (.ok text) => [.tool operation (.obj args) text]
  | _ => []

end Answer

/-- What came of trying to call an operation: what was heard, how it was answered in the end, and the client
    and the servers then. -/
structure Attempt (ρ κ : Type) where
  heard : List (Move κ × Word κ)
  answer : Answer
  client : Option κ
  remote : ρ

/-- What comes of trying to call an operation on a session at a place in the catalog. One without a client
    is connected first. -/
inductive Attempts (r : Remote ρ κ) (l : Locator) (x : ρ) (operation : String) (args : Fields) :
    Option κ → Attempt ρ κ → Prop
  /-- No connection, no call. -/
  | unconnected {e : RemoteError} {x' : ρ} (hconnect : r.connect l x = (.error e, x')) :
      Attempts r l x operation args none {
        heard := [(.connect, .connected (.error e))]
        answer := .replied (.error e)
        client := none
        remote := x' }
  | connected {client client' : κ} {answer : Answer} {x₁ x' : ρ} (hconnect : r.connect l x = (.ok client, x₁))
      (hcall : r.call client operation args x₁ = ((answer, client'), x')) :
      Attempts r l x operation args none {
        heard := [(.connect, .connected (.ok client)), (.call operation args, .answered answer client')]
        answer := answer
        client := some client'
        remote := x' }
  | again {client client' : κ} {answer : Answer} {x' : ρ}
      (hcall : r.call client operation args x = ((answer, client'), x')) :
      Attempts r l x operation args (some client) {
        heard := [(.call operation args, .answered answer client')]
        answer := answer
        client := some client'
        remote := x' }

/-- A job comes to an attempt to call an operation. -/
structure Play.Accords (e : Play ρ κ) (s : Session κ) (operation : String) (args : Fields) (a : Attempt ρ κ) :
    Prop where
  heard : e.heard = a.heard
  result : (e.result.getD (.error .workerClosed)).map Yield.normalized = a.answer.told
  session : e.session = { s with client := a.client }
  remote : e.remote = a.remote
  noted : e.noted = a.answer.logged operation args

namespace Station.Plays
variable {r : Remote ρ κ} {t : Nat} {s : Session κ} {x x' : ρ} {e : Play ρ κ} {operation : String}
  {args : Fields}

/-- The last move of a job that called an operation. -/
theorem of_leaving {result : Except PoolError Yield} (h : (leaving result).Plays r t s x e)
    (hline : s.line = [t]) : e = { result := some result, session := { s with line := [] }, remote := x } := by
  obtain ⟨later, hplays, rfl⟩ := h.of_own rfl rfl
  obtain rfl := of_ended hplays
  simp only [Session.after, hline, List.erase_cons_head]
  rfl

theorem of_calling {client client' : κ} {answer : Answer}
    (h : (calling (.use operation args)).Plays r t s x e) (hline : s.line = [t]) (hc : s.client = some client)
    (hcall : r.call client operation args x = ((answer, client'), x')) : e = {
      result := answer.yield
      session := { s with client := some client', line := [] }
      remote := x'
      heard := [(.call operation args, .answered answer client')]
      noted := answer.logged operation args } := by
  have hword : r.word s x (.call operation args) = some (.answered answer client', x') := by
    rw [Remote.word, hc]
    simp only [hcall]
  obtain ⟨hreplied, hdied⟩ := h.of_word rfl hword
  cases answer with
  | died =>
    rw [hdied rfl]
    simp only [Session.hear, hline, List.erase_cons_head]
    rfl
  | replied reply =>
    obtain ⟨later, hplays, rfl⟩ := hreplied reply rfl
    cases reply with
    | error e =>
      obtain rfl := of_leaving hplays hline
      rfl
    | ok text =>
      obtain ⟨last, hlast, rfl⟩ := of_own hplays rfl rfl
      obtain rfl := of_leaving hlast hline
      rfl

/-- A job that calls an operation on an open session makes an attempt at that. -/
theorem attempts (h : (waiting (.call operation args)).Plays r t s x e) (hopen : s.closed = false)
    (hline : s.line = []) : ∃ a, Attempts r s.locator x operation args s.client a ∧ e.Accords s operation args a := by
  obtain ⟨id, locator, ready, closed, client, line⟩ := s
  cases hopen
  cases hline
  obtain ⟨e₁, hlooking, rfl⟩ := h.of_own rfl rfl
  obtain ⟨e₂, hnext, rfl⟩ := of_own hlooking rfl rfl
  cases client with
  | some client =>
    generalize hcall : r.call client operation args x = reply
    obtain ⟨⟨answer, client'⟩, x'⟩ := reply
    obtain rfl := of_calling hnext rfl rfl hcall
    exact ⟨_, .again hcall, rfl, answer.told_eq, rfl, rfl, rfl⟩
  | none =>
    generalize hconnect : r.connect locator x = reply
    obtain ⟨connection, x₁⟩ := reply
    have hword : r.word { id := id, locator := locator, ready := ready, line := [t] } x .connect =
        some (.connected connection, x₁) := by
      simp only [Remote.word, hconnect]
    obtain ⟨hreplied, -⟩ := hnext.of_word rfl hword
    obtain ⟨e₃, hlater, rfl⟩ := hreplied _ rfl
    cases connection with
    | error e =>
      obtain rfl := of_leaving hlater rfl
      exact ⟨_, .unconnected hconnect, rfl, rfl, rfl, rfl, rfl⟩
    | ok client =>
      generalize hcall : r.call client operation args x₁ = reply
      obtain ⟨⟨answer, client'⟩, x'⟩ := reply
      obtain rfl := of_calling hlater rfl rfl hcall
      exact ⟨_, .connected hconnect hcall, rfl, answer.told_eq, rfl, rfl, rfl⟩

end Station.Plays

/-! ### Refusals -/

/-- Whether an error says that an invocation was refused, and nothing was done. -/
def PoolError.isRefusal : PoolError → Bool
  | .unknownGroup _ => true
  | .malformedArguments _ => true
  | _ => false

namespace Station
variable {r : Remote ρ κ} {t : Nat} {st : Station κ} {s : Session κ} {x : ρ} {e : Play ρ κ} {m : Move κ}

/-- A job at the station does not end with a refusal. -/
def Honest : Station κ → Prop
  | leaving (.error e) => e.isRefusal = false
  | ended (.error e) => e.isRefusal = false
  | _ => True

theorem honest_failure (p : Purpose) (e : RemoteError) : (leaving (p.failure e) : Station κ).Honest := by
  cases p with
  | echo state message => exact trivial
  | use _ _ | load _ _ _ => cases e <;> exact rfl

theorem honest_after (h : st.Honest) (hm : st.move = some m) (reply : m.Reply) : (st.after m reply).Honest := by
  cases st with
  | waiting w => cases hm; cases w <;> exact trivial
  | checking state extra check =>
    cases hm
    simp only [after]
    split <;> exact trivial
  | looking p =>
    cases hm
    simp only [after]
    split
    · exact honest_failure p _
    · split <;> exact trivial
  | connecting p | calling p =>
    cases hm
    cases reply with
    | error e => exact honest_failure p e
    | ok _ => exact trivial
  | logging p text =>
    cases hm
    cases p with
    | use operation args => exact trivial
    | load state extra check => cases check <;> exact trivial
    | echo state message =>
      simp only [after, served]
      split <;> exact trivial
  | leaving result =>
    cases hm
    cases result with
    | error e => exact h
    | ok y => exact trivial
  | parting id client => cases hm; cases client <;> exact trivial
  | closing id c =>
    cases hm
    cases reply with
    | error e => exact rfl
    | ok _ => exact trivial
  | marking _ | retiring | sealing _ => cases hm; exact trivial
  | ended _ | dead => cases hm

/-- No work ends with a refusal. -/
theorem Plays.honest {w : Work} {error : PoolError} (h : (waiting w).Plays r t s x e)
    (he : e.result = some (.error error)) : error.isRefusal = false := by
  have hlast := h.ends (P := fun st _ _ => st.Honest) (fun hst hm _ => honest_after hst hm _)
    (fun {st s x m word x'} hst hm _ => by
      rw [Station.heard]
      split
      · exact honest_after hst hm _
      · exact trivial) trivial
  rw [Play.last, he] at hlast
  exact hlast

end Station

/-! ### Calls -/

namespace Front

/-- The session that a caller gets for an id, by its place: the live one, or a new one if its group is in
    the catalog. -/
inductive Admits (f : Front ρ κ) (id : String) : Nat → Session κ → Prop
  | live {n : Nat} {s : Session κ} (hn : Table.get? id f.registry = some n)
      (hs : f.shared.sessions[n]? = some s) : Admits f id n s
  | new {l : Locator} (hn : Table.get? id f.registry = none)
      (hl : f.catalog.locator? (SessionKey.parse id).group = some l) :
      Admits f id f.shared.sessions.length { id := id, locator := l }

/-- What has become of a pool when only one id was concerned: it names a session, entries were logged for
    it, the servers have another state, and all else is as it was. -/
structure Leads (f : Front ρ κ) (id : String) (n : Nat) (s : Session κ) (entries : List LogEntry) (x : ρ)
    (f' : Front ρ κ) : Prop where
  live : Table.get? id f'.registry = some n
  session : f'.shared.sessions[n]? = some s
  names : ∀ j, j ≠ id → Table.get? j f'.registry = Table.get? j f.registry
  others : ∀ m, m ≠ n → f'.shared.sessions[m]? = f.shared.sessions[m]?
  log : f'.shared.log = f.shared.log.write id entries
  remote : f'.shared.remote = x
  catalog : f'.catalog = f.catalog
  running : f'.ended = f.ended

/-- Live sessions are open. -/
def Open (f : Front ρ κ) : Prop := f.Live fun _ s => s.closed = false

variable {r : Remote ρ κ} {f f' f₁ f₂ : Front ρ κ} {id operation : String} {n m : Nat} {s s' : Session κ} {x : ρ}
  {args : Fields} {d : Deal κ} {ds : List (Deal κ)}

theorem Does.isOpen (h : Does r f d f₁) (ht : f.Tidy) (ho : f.Open) : f₁.Open :=
  h.live ht (fun _ _ _ => rfl) (fun _ _ hs => hs) (fun hv plays hs => plays.stays_open hv hs) ho

theorem Deals.isOpen (h : Deals r f ds f₁) (ht : f.Tidy) (ho : f.Open) : f₁.Open := by
  induction h with
  | none => exact ho
  | next first _ ih => exact ih (first.tidy ht) (first.isOpen ht ho)

theorem Admits.sound (h : f.Admits id n s) (ht : f.Tidy) (ho : f.Open) :
    s.id = id ∧ s.closed = false ∧ s.line = [] := by
  cases h with
  | live hn hs =>
    obtain ⟨s', hs', hid⟩ := ht.named id n hn
    cases hs.symm.trans hs'
    exact ⟨hid, ho id n s hn hs, ht.free s (List.mem_of_getElem? hs)⟩
  | new => exact ⟨rfl, rfl, rfl⟩

theorem Admits.isReady (h : f.Admits id n s) : f.isReady n = s.ready := by
  cases h with
  | live hn hs => rw [Front.isReady, hs]; rfl
  | new => rw [Front.isReady, List.getElem?_eq_none (Nat.le_refl _)]; rfl

/-- A caller gets a session unless its group is not in the catalog. -/
theorem Admits.known (h : f.Admits id n s) (hn : Table.get? id f.registry = none) :
    f.catalog.locator? (SessionKey.parse id).group ≠ none := by
  cases h with
  | live hn' => cases hn.symm.trans hn'
  | new _ hl => rw [hl]; nofun

/-- A session that is found or made is the one that a caller gets. -/
theorem Admits.leads (h : f.Admits id n s) (hd : Does r f (.obtained id m) f₁) :
    m = n ∧ f.Leads id n s [] f.shared.remote f₁ := by
  cases h with
  | live hn hs =>
    cases hd with
    | found hm =>
      cases hm.symm.trans hn
      exact ⟨rfl, hn, hs, fun _ _ => rfl, fun _ _ => rfl, rfl, rfl, rfl, rfl⟩
    | made hm => cases hm.symm.trans hn
  | new hn hl =>
    cases hd with
    | found hm => cases hm.symm.trans hn
    | made hm hl' =>
      cases hl'.symm.trans hl
      refine ⟨rfl, Table.get?_insert_self .., List.getElem?_concat_length, fun j hj => Table.get?_insert_of_ne hj ..,
        fun m hm => ?_, rfl, rfl, rfl, rfl⟩
      rcases Nat.lt_or_gt_of_ne hm with hlt | hgt
      · exact List.getElem?_append_left hlt
      · rw [List.getElem?_eq_none (Nat.le_of_lt hgt)]
        exact List.getElem?_eq_none (by rw [List.length_append]; exact hgt)

/-- The session that an id names is changed, and something is logged for it. -/
theorem Leads.put {shared : Shared ρ κ} {later : List LogEntry} {x' : ρ} (h : f.Leads id n s [] x f₁)
    (hsessions : shared.sessions = f₁.shared.sessions.set n s') (hlog : shared.log = f₁.shared.log.write id later)
    (hremote : shared.remote = x') : f.Leads id n s' later x' { f₁ with shared := shared } where
  live := h.live
  session := by
    rw [show ({ f₁ with shared := shared } : Front ρ κ).shared.sessions = _ from hsessions]
    exact List.getElem?_set_self (List.getElem?_eq_some_iff.1 h.session).1
  names := h.names
  others m hm := by
    rw [show ({ f₁ with shared := shared } : Front ρ κ).shared.sessions = _ from hsessions]
    exact (List.getElem?_set_ne hm.symm).trans (h.others m hm)
  log := hlog.trans (congrArg (CallLog.write · id later) h.log)
  remote := hremote
  catalog := h.catalog
  running := h.running

theorem Leads.marked (h : f.Leads id n s [] x f₁) (hd : Does r f₁ (.marked id m) f₂) :
    m = n ∧ f.Leads id n { s with ready := true } [] x f₂ := by
  cases hd with
  | marked hn hs =>
    cases hn.symm.trans h.live
    cases hs.symm.trans h.session
    exact ⟨rfl, h.put rfl rfl h.remote⟩

/-- A call on the session that an id names is an attempt at it. -/
theorem Leads.worked {result : Option (Except PoolError Yield)} {heard : List (Heard κ)}
    (h : f.Leads id n s [] x f₁) (hid : s.id = id) (hopen : s.closed = false) (hline : s.line = [])
    (hd : Does r f₁ (.worked ⟨n, .call operation args, result, heard⟩) f₂) :
    ∃ a, Attempts r s.locator x operation args s.client a ∧
      (result.getD (.error .workerClosed)).map Yield.normalized = a.answer.told ∧
      heard = a.heard.map (fun w => ⟨n, id, w.1, w.2⟩) ∧
      f.Leads id n { s with client := a.client } (a.answer.logged operation args) a.remote f₂ := by
  cases hd with
  | worked hs _ plays _ =>
    cases hs.symm.trans h.session
    obtain ⟨a, hattempts, haccords⟩ := plays.attempts hopen hline
    rw [h.remote] at hattempts
    refine ⟨a, hattempts, haccords.result, ?_, ?_⟩
    · rw [Play.words, haccords.heard, hid]
    · refine h.put ?_ ?_ haccords.remote
      · rw [Shared.played, haccords.session]
      · rw [Shared.played, haccords.noted, hid]

end Front

/-- A call on a session that is to be had is an attempt at it. -/
theorem Calls.attempts {r : Remote ρ κ} {f f' : Front ρ κ} {id operation : String} {args : Fields} {n : Nat}
    {s : Session κ} {y : Except PoolError Normalized} {ds : List (Deal κ)} (h : Calls f id operation args y ds)
    (hdeals : Front.Deals r f ds f') (hrunning : f.ended = false) (ht : f.Tidy) (ho : f.Open)
    (hs : f.Admits id n s) : ∃ a, Attempts r s.locator f.shared.remote operation args s.client a ∧ y = a.answer.told ∧
      ds.flatMap Deal.heard = a.heard.map (fun w => ⟨n, id, w.1, w.2⟩) ∧
      f.Leads id n { s with ready := s.ready || f.catalog.isStateless (SessionKey.parse id).group
                            client := a.client } (a.answer.logged operation args) a.remote f' := by
  obtain ⟨hid, hopen, hline⟩ := hs.sound ht ho
  cases h with
  | unknown hn hl => exact absurd hl (hs.known hn)
  | @plain m y ds hready hsent =>
    obtain ⟨result, heard, rfl, rfl⟩ := hsent.running hrunning
    obtain _ | ⟨first, _ | ⟨job, ⟨⟩⟩⟩ := hdeals
    obtain ⟨rfl, hleads⟩ := hs.leads first
    obtain ⟨a, hattempts, hresult, hheard, hleads⟩ := hleads.worked hid hopen hline job
    refine ⟨a, hattempts, hresult, (List.append_nil _).trans hheard, ?_⟩
    have hsame : (s.ready || f.catalog.isStateless (SessionKey.parse id).group) = s.ready := by
      rw [hs.isReady] at hready
      rcases hready with hready | hstateful
      · rw [hready, Bool.true_or]
      · rw [hstateful, Bool.or_false]
    rw [hsame]
    exact hleads
  | @stateless m y ds hstateless hsent =>
    obtain ⟨result, heard, rfl, rfl⟩ := hsent.running hrunning
    obtain _ | ⟨first, _ | ⟨mark, _ | ⟨job, ⟨⟩⟩⟩⟩ := hdeals
    obtain ⟨rfl, hleads⟩ := hs.leads first
    obtain ⟨-, hleads⟩ := hleads.marked mark
    obtain ⟨a, hattempts, hresult, hheard, hleads⟩ := hleads.worked hid hopen hline job
    refine ⟨a, hattempts, hresult, (List.append_nil _).trans hheard, ?_⟩
    rw [hstateless, Bool.or_true]
    exact hleads

/-! ### Refused invocations -/

namespace Arguments

/-- Arguments that are not well-formed are refused as such. -/
theorem malformed_of_error {args : Arguments} {e : PoolError} (h : args.fields = .error e) :
    ∃ message, e = .malformedArguments message := by
  cases args with
  | structured fields => cases h
  | text s =>
    rw [fields] at h
    split at h
    · cases h
    · split at h <;> cases h <;> exact ⟨_, rfl⟩

end Arguments

section
variable {r : Remote ρ κ} {f f₁ f₂ : Front ρ κ} {id name : String} {n : Nat} {v : Work} {b : Bool}
  {error : PoolError} {ds : List (Deal κ)}

/-- Work that is sent is not refused, in whatever form its result is told. -/
theorem Sent.honest {α : Type} {g : Yield → α} {y : Except PoolError Yield} (h : Sent n v b y ds)
    (hdeals : Front.Deals r f₁ ds f₂) (hy : y.map g = .error error) : error.isRefusal = false := by
  obtain ⟨-, rfl, -⟩ | ⟨result, heard, -, rfl, rfl⟩ := h.inversion
  · cases hy
    rfl
  obtain _ | ⟨job, -⟩ := hdeals
  cases job with
  | @worked _ _ _ _ e _ _ plays _ =>
    cases hresult : e.result with
    | none =>
      rw [hresult] at hy
      cases hy
      rfl
    | some result =>
      rw [hresult] at hy
      cases result with
      | ok _ => cases hy
      | error e =>
        cases hy
        exact plays.honest hresult

/-- The group of an id is unknown. -/
def Front.Lacks (f : Front ρ κ) (id : String) : Prop :=
  Table.get? id f.registry = none ∧ f.catalog.locator? (SessionKey.parse id).group = none

theorem Front.lacks_or_admits (ht : f.Tidy) (id : String) : f.Lacks id ∨ ∃ n s, f.Admits id n s := by
  cases hn : Table.get? id f.registry with
  | some n =>
    obtain ⟨s, hs, -⟩ := ht.named id n hn
    exact .inr ⟨n, s, .live hn hs⟩
  | none =>
    cases hl : f.catalog.locator? (SessionKey.parse id).group with
    | none => exact .inl ⟨hn, hl⟩
    | some l => exact .inr ⟨_, _, .new hn hl⟩

theorem Loads.refused {state : Json} {extra : Fields} {check : Bool} {y : Except PoolError LoadOutcome}
    (h : Loads f id state extra check y ds) (hdeals : Front.Deals r f ds f₁) (hy : y = .error error)
    (herror : error.isRefusal = true) : f.Lacks id ∧ error = .unknownGroup (SessionKey.parse id).group := by
  cases h with
  | unknown hn hl =>
    cases hy
    exact ⟨⟨hn, hl⟩, rfl⟩
  | already | empty => cases hy
  | sent _ _ hsent =>
    obtain _ | ⟨-, hdeals⟩ := hdeals
    rw [hsent.honest hdeals hy] at herror
    cases herror

theorem Calls.refused {operation : String} {args : Fields} {y : Except PoolError Normalized}
    (h : Calls f id operation args y ds) (hdeals : Front.Deals r f ds f₁) (hy : y = .error error)
    (herror : error.isRefusal = true) : f.Lacks id ∧ error = .unknownGroup (SessionKey.parse id).group := by
  cases h with
  | unknown hn hl =>
    cases hy
    exact ⟨⟨hn, hl⟩, rfl⟩
  | plain _ hsent =>
    obtain _ | ⟨-, hdeals⟩ := hdeals
    rw [hsent.honest hdeals hy] at herror
    cases herror
  | stateless _ hsent =>
    obtain _ | ⟨-, _ | ⟨-, hdeals⟩⟩ := hdeals
    rw [hsent.honest hdeals hy] at herror
    cases herror

/-- An invocation is refused for its arguments, and then for the group of its session, and not otherwise. -/
theorem Invokes.refused {args : Arguments} {y : Except PoolError Normalized} (h : Invokes f id name args y ds)
    (hdeals : Front.Deals r f ds f₁) (hy : y = .error error) (herror : error.isRefusal = true) :
    args.fields = .error error ∨ (∃ fields, args.fields = .ok fields) ∧ f.Lacks id ∧
      error = .unknownGroup (SessionKey.parse id).group := by
  cases h with
  | malformed hargs =>
    cases hy
    exact .inl hargs
  | @loads fields y _ hargs _ hloads =>
    cases y with
    | ok _ => cases hy
    | error e =>
      cases hy
      exact .inr ⟨⟨fields, hargs⟩, hloads.refused hdeals rfl herror⟩
  | calls hargs _ hcalls => exact .inr ⟨⟨_, hargs⟩, hcalls.refused hdeals hy herror⟩

end

namespace Pool

/-- A pool between two commands whose live sessions are open, shut down or not. -/
structure Orderly (p : Pool ρ κ) : Prop where
  quiet : p.Quiet
  isOpen : p.front.Open

/-- A pool between two commands whose worker runs and whose live sessions are open. -/
structure Steady (p : Pool ρ κ) : Prop extends p.Orderly where
  running : p.worker.ended = false

/-- An invocation comes to an attempt to call an operation on the session of an id, which is at a place
    then; a session whose group has no state is ready then. -/
structure Called (r : Remote ρ κ) (p : Pool ρ κ) (id name : String) (args : Arguments) (operation : String)
    (fields : Fields) (n : Nat) (s : Session κ) (a : Attempt ρ κ) (p' : Pool ρ κ) : Prop where
  run : p.run r (Caller.invoke p.catalog id name args) = (.finished a.answer.told, p')
  heard : p.heard r (Caller.invoke p.catalog id name args) = a.heard.map fun w => ⟨n, id, w.1, w.2⟩
  leads : p.front.Leads id n
    { s with ready := s.ready || p.catalog.isStateless (SessionKey.parse id).group, client := a.client }
    (a.answer.logged operation fields) a.remote p'.front

/-- All that comes of an invocation. -/
structure Accounted (r : Remote ρ κ) (p : Pool ρ κ) (id name : String) (args : Arguments) : Prop where
  /-- Arguments that are not well-formed are refused first, and nothing happens. -/
  malformed : ∀ e, args.fields = .error e → (∃ message, e = .malformedArguments message) ∧
    p.run r (Caller.invoke p.catalog id name args) = (.finished (.error e), p) ∧
      p.heard r (Caller.invoke p.catalog id name args) = []
  /-- Then an unknown group is, and nothing happens either. -/
  unknown : ∀ fields, args.fields = .ok fields → p.front.Lacks id →
    p.run r (Caller.invoke p.catalog id name args) =
        (.finished (.error (.unknownGroup (SessionKey.parse id).group)), p) ∧
      p.heard r (Caller.invoke p.catalog id name args) = []
  /-- Nothing else is refused, not even a load. -/
  refused : ∀ error p', p.run r (Caller.invoke p.catalog id name args) = (.finished (.error error), p') →
    error.isRefusal = true → args.fields = .error error ∨
      (∃ fields, args.fields = .ok fields) ∧ p.front.Lacks id ∧ error = .unknownGroup (SessionKey.parse id).group
  /-- Whatever is not refused has a session. -/
  admitted : p.front.Lacks id ∨ ∃ n s, p.front.Admits id n s
  /-- The name is that of one operation, with or without a group in front. -/
  named : ∃! operation, Names name operation
  /-- An operation that loads no state is tried there, and the session can be used again, whatever came of it. -/
  called : ∀ operation fields n s, Names name operation → args.fields = .ok fields → isLoad operation = false →
    p.front.Admits id n s → ∃ a p', Attempts r s.locator p.shared.remote operation fields s.client a ∧
      Called r p id name args operation fields n s a p' ∧ p'.Steady
  /-- A session that was not connected is connected by the next call on it. -/
  again : ∀ operation fields n s a p', Names name operation → args.fields = .ok fields →
    isLoad operation = false → p.front.Admits id n s → Called r p id name args operation fields n s a p' →
    a.client = none → ∀ name' args' operation' fields', Names name' operation' → args'.fields = .ok fields' →
      isLoad operation' = false →
        ∃ word later, p'.heard r (Caller.invoke p'.catalog id name' args') = ⟨n, id, .connect, word⟩ :: later

variable {r : Remote ρ κ} {p p' : Pool ρ κ} {id name operation : String} {args : Arguments} {fields : Fields}
  {n : Nat} {s : Session κ}

/-- A pool of which nothing was asked yet has no session. -/
theorem Made.orderly (hp : p.Made r) : p.Orderly where
  quiet := hp.quiet
  isOpen id n s hn := by
    rw [front, hp.rest.2] at hn
    cases hn

theorem Steady.called (h : p.Steady) (hr : r.Prompt) (hname : Names name operation)
    (hargs : args.fields = .ok fields) (hload : isLoad operation = false) (hs : p.front.Admits id n s) :
    ∃ a p', Attempts r s.locator p.shared.remote operation fields s.client a ∧
      Called r p id name args operation fields n s a p' ∧ p'.Steady := by
  obtain rfl := names_iff.1 hname
  obtain ⟨y, ds, p', hruns, hquiet, hinvokes⟩ := h.quiet.runs_invoke hr id name args
  have hcalls : Calls p.front id (operationName name) fields y ds := by
    cases hinvokes with
    | malformed hargs' => cases hargs.symm.trans hargs'
    | loads _ hload' => cases hload.symm.trans hload'
    | calls hargs' _ hcalls =>
      cases hargs.symm.trans hargs'
      exact hcalls
  obtain ⟨a, hattempts, rfl, hheard, hleads⟩ :=
    hcalls.attempts hruns.deals h.running h.quiet.tidy h.isOpen hs
  exact ⟨a, p', hattempts, ⟨hruns.run, hruns.heard.trans hheard, hleads⟩,
    ⟨hquiet, hruns.deals.isOpen h.quiet.tidy h.isOpen⟩, hleads.running.trans h.running⟩

/-- An invocation on a session of an unknown group goes no further than to ask for the session. -/
theorem runs_unknown (r : Remote ρ κ) (name : String) (hargs : args.fields = .ok fields) (hlacks : p.front.Lacks id) :
    p.Runs r (Caller.invoke p.catalog id name args) (.error (.unknownGroup (SessionKey.parse id).group)) [] p := by
  obtain ⟨hn, hl⟩ := hlacks
  have hanswer : p.answer (.obtain id) = .went (.error (.unknownGroup (SessionKey.parse id).group)) p [] := by
    simp only [answer, obtain, show Table.get? id p.registry = none from hn,
      show p.catalog.locator? (SessionKey.parse id).group = none from hl]
  have hruns : p.Runs r (Caller.act (.obtain id)) _ [] p := .ask rfl hanswer .none rfl
  rw [Caller.invoke, hargs]
  simp only
  split
  · exact (hruns.pure rfl).pure rfl
  · exact hruns.pure rfl

theorem Steady.accounted (h : p.Steady) (hr : r.Prompt) (id name : String) (args : Arguments) :
    Accounted r p id name args where
  malformed e hargs := by
    refine ⟨Arguments.malformed_of_error hargs, ?_⟩
    rw [Caller.invoke, hargs]
    exact ⟨rfl, rfl⟩
  unknown _ hargs hlacks := ⟨(runs_unknown r name hargs hlacks).run, (runs_unknown r name hargs hlacks).heard⟩
  refused error p' hrun herror := by
    obtain ⟨y, ds, p₁, hruns, -, hinvokes⟩ := h.quiet.runs_invoke hr id name args
    cases hrun.symm.trans hruns.run
    exact hinvokes.refused hruns.deals rfl herror
  admitted := Front.lacks_or_admits h.quiet.tidy id
  named := existsUnique_names name
  called _ _ _ _ hname hargs hload hs := h.called hr hname hargs hload hs
  again operation fields n s a p' hname hargs hload hs hcalled hclient name' args' operation' fields' hname' hargs'
      hload' := by
    obtain ⟨a₁, p₁, -, hcalled₁, hsteady⟩ := h.called hr hname hargs hload hs
    obtain rfl : p' = p₁ := (Prod.mk.inj (hcalled.run.symm.trans hcalled₁.run)).2
    have hlive : p'.front.Admits id n _ := .live hcalled.leads.live hcalled.leads.session
    obtain ⟨a', p₂, hattempts, hcalled', -⟩ := hsteady.called hr hname' hargs' hload' hlive
    rw [show Session.client _ = none from hclient] at hattempts
    rw [hcalled'.heard]
    cases hattempts <;> exact ⟨_, _, rfl⟩

end Pool

/-- A command leaves live sessions open. -/
theorem Desk.Obeys.orderly {r : Remote ρ κ} {d d' : Desk ρ κ} {i : Instruction} {x : Upshot}
    {ds : List (Deal κ)} (hobeys : d.Obeys r i x ds d') (h : d.pool.Orderly) : d'.pool.Orderly :=
  ⟨hobeys.quiet, hobeys.deals.isOpen h.quiet.tidy h.isOpen⟩

end SessionPool
