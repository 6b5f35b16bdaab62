import SessionPool.Proofs.Account
import SessionPool.Proofs.ConfigText

/-! Spelling: an operation may be invoked by its own name or by its routed name. The routed name always means
    the operation, whatever it is called. The bare name is read the same way, so what stands before its
    first separator is taken for a group: the two spellings are one invocation if the name holds no
    separator, and the bare one invokes the operation named by what stands behind it otherwise. -/

namespace SessionPool
variable {ρ κ : Type}

/-- The actions that a program takes on its way to an end, each with the reply to it. -/
inductive Program.Takes {A : Type} {R : A → Type} {α : Type} :
    Program A R α → List ((a : A) × R a) → α → Prop
  | done (x : α) : Takes (.done x) [] x
  | act {a : A} {next : R a → Program A R α} {reply : R a} {path : List ((a : A) × R a)} {x : α}
      (later : Takes (next reply) path x) : Takes (.act a next) (⟨a, reply⟩ :: path) x

section
variable {A : Type} {R : A → Type} {α : Type} {a : A} {next : R a → Program A R α} {x y : α}
  {path : List ((a : A) × R a)}

theorem Program.takes_done : (Program.done x : Program A R α).Takes path y ↔ path = [] ∧ x = y := by
  constructor
  · rintro ⟨⟩
    exact ⟨rfl, rfl⟩
  · rintro ⟨rfl, rfl⟩
    exact .done x

theorem Program.takes_act : (Program.act a next).Takes path y ↔
    ∃ reply rest, path = ⟨a, reply⟩ :: rest ∧ (next reply).Takes rest y := by
  constructor
  · rintro ⟨⟩
    exact ⟨_, _, rfl, ‹_›⟩
  · rintro ⟨reply, rest, rfl, later⟩
    exact .act later

end

namespace Errand

/-- The moves of a job, each with the reply to it. -/
abbrev Path (κ : Type) := List ((d : Deed κ) × d.Reply)

/-- A job that has a client calls an operation on it, once, and logs the call if it is answered by a text. -/
inductive Uses (n : Nat) (operation : String) (args : Fields) : Path κ → Except PoolError Yield → Prop
  | failed (e : RemoteError) : Uses n operation args
      [⟨⟨n, .call operation args⟩, Except.error e⟩, ⟨⟨n, .unlock⟩, ()⟩] (.error e.toPool)
  | answered (text : String) : Uses n operation args
      [⟨⟨n, .call operation args⟩, Except.ok text⟩, ⟨⟨n, .record operation args text⟩, ()⟩, ⟨⟨n, .unlock⟩, ()⟩]
      (.ok (.text text))

/-- A job that calls an operation of a session, from the line on. It uses the client of the session, or
    connects one, and calls nothing only if the session is closed or the connection fails. -/
inductive Performs (n : Nat) (operation : String) (args : Fields) : Path κ → Except PoolError Yield → Prop
  | closed {here : Session κ} (hclosed : here.closed = true) : Performs n operation args
      [⟨⟨n, .lock⟩, ()⟩, ⟨⟨n, .look⟩, here⟩, ⟨⟨n, .unlock⟩, ()⟩] (.error (.sessionClosed here.id))
  | unconnected {here : Session κ} (hopen : here.closed = false) (hclient : here.client = none) (e : RemoteError) :
      Performs n operation args [⟨⟨n, .lock⟩, ()⟩, ⟨⟨n, .look⟩, here⟩, ⟨⟨n, .connect⟩, Except.error e⟩,
        ⟨⟨n, .unlock⟩, ()⟩] (.error e.toPool)
  | connected {here : Session κ} {path : Path κ} {y : Except PoolError Yield} (hopen : here.closed = false)
      (hclient : here.client = none) (uses : Uses n operation args path y) : Performs n operation args
        (⟨⟨n, .lock⟩, ()⟩ :: ⟨⟨n, .look⟩, here⟩ :: ⟨⟨n, .connect⟩, Except.ok ()⟩ :: path) y
  | again {here : Session κ} {client : κ} {path : Path κ} {y : Except PoolError Yield}
      (hopen : here.closed = false) (hclient : here.client = some client) (uses : Uses n operation args path y) :
      Performs n operation args (⟨⟨n, .lock⟩, ()⟩ :: ⟨⟨n, .look⟩, here⟩ :: path) y

end Errand

namespace Station
variable {n : Nat} {operation : String} {args : Fields} {path : Errand.Path κ} {y result : Except PoolError Yield}
  {st : Station κ} {m : Move κ} {p : Purpose} {here : Session κ}

/-- The ways of a job from a station to its end: the moves, each with a reply, and the result. -/
inductive Takes (n : Nat) : Station κ → Errand.Path κ → Except PoolError Yield → Prop
  | ended (result : Except PoolError Yield) : Takes n (.ended result) [] result
  | move {st : Station κ} {m : Move κ} {reply : m.Reply} {path : Errand.Path κ} {y : Except PoolError Yield}
      (hm : st.move = some m) (later : Takes n (st.after m reply) path y) :
      Takes n st (⟨⟨n, m⟩, reply⟩ :: path) y

theorem takes_ended : (ended result : Station κ).Takes n path y ↔ path = [] ∧ result = y := by
  constructor
  · intro h
    cases h with
    | ended => exact ⟨rfl, rfl⟩
    | move hm => cases hm
  · rintro ⟨rfl, rfl⟩
    exact .ended result

theorem takes_move (hm : st.move = some m) : st.Takes n path y ↔
    ∃ (reply : m.Reply) (rest : Errand.Path κ), path = ⟨⟨n, m⟩, reply⟩ :: rest ∧ (st.after m reply).Takes n rest y := by
  constructor
  · intro h
    cases h with
    | ended => cases hm
    | move hm' later =>
      obtain rfl := Option.some.inj (hm.symm.trans hm')
      exact ⟨_, _, rfl, later⟩
  · rintro ⟨reply, rest, rfl, later⟩
    exact .move hm later

theorem takes_leaving : (leaving result : Station κ).Takes n path y ↔
    path = [⟨⟨n, .unlock⟩, ()⟩] ∧ result = y := by
  rw [takes_move rfl]
  constructor
  · rintro ⟨reply, rest, rfl, hended⟩
    obtain ⟨rfl, rfl⟩ := takes_ended.1 hended
    exact ⟨rfl, rfl⟩
  · rintro ⟨rfl, rfl⟩
    exact ⟨(), [], rfl, .ended result⟩

theorem takes_calling : (calling (.use operation args) : Station κ).Takes n path y ↔
    Errand.Uses n operation args path y := by
  constructor
  · intro h
    obtain ⟨reply, rest, rfl, hcalled⟩ := (takes_move rfl).1 h
    cases reply with
    | error e =>
      obtain ⟨rfl, rfl⟩ := takes_leaving.1 hcalled
      exact .failed e
    | ok text =>
      obtain ⟨_, rest, rfl, hlogged⟩ := (takes_move rfl).1 hcalled
      obtain ⟨rfl, rfl⟩ := takes_leaving.1 hlogged
      exact .answered text
  · intro h
    cases h with
    | failed e => exact .move rfl (takes_leaving.2 ⟨rfl, rfl⟩)
    | answered text => exact .move rfl (.move rfl (takes_leaving.2 ⟨rfl, rfl⟩))

theorem takes_waiting : (waiting (.call operation args) : Station κ).Takes n path y ↔
    ∃ (here : Session κ) (rest : Errand.Path κ), path = ⟨⟨n, .lock⟩, ()⟩ :: ⟨⟨n, .look⟩, here⟩ :: rest ∧
      ((looking (.use operation args)).after .look here).Takes n rest y := by
  constructor
  · intro h
    obtain ⟨_, _, rfl, hlooking⟩ := (takes_move rfl).1 h
    obtain ⟨here, rest, rfl, hfound⟩ := (takes_move rfl).1 hlooking
    exact ⟨here, rest, rfl, hfound⟩
  · rintro ⟨here, rest, rfl, hfound⟩
    exact .move rfl (.move rfl hfound)

theorem after_look_closed (h : here.closed = true) :
    (looking p : Station κ).after .look here = leaving (p.failure (.closed here.id)) := if_pos h

theorem after_look_vacant (hopen : here.closed = false) (hclient : here.client = none) :
    (looking p : Station κ).after .look here = connecting p := by
  simp [after, hopen, hclient]

theorem after_look_connected {client : κ} (hopen : here.closed = false) (hclient : here.client = some client) :
    (looking p : Station κ).after .look here = calling p := by
  simp [after, hopen, hclient]

end Station

namespace Errand
variable {n : Nat} {operation : String} {args : Fields} {y : Except PoolError Yield}

/-- A job goes the ways of its station. -/
theorem Follows.takes_iff {p : Errand κ (Except PoolError Yield)} : ∀ {st : Station κ} {path : Path κ},
    Follows n p st → (p.Takes path y ↔ st.Takes n path y) := by
  induction p with
  | done result =>
    intro st path h
    rw [show st = .ended result from h, Program.takes_done, Station.takes_ended]
  | act d next ih =>
    intro st path h
    obtain ⟨n', m⟩ := d
    obtain ⟨rfl, hm, hnext⟩ := h
    rw [Program.takes_act, Station.takes_move hm]
    exact exists_congr fun reply => exists_congr fun rest => and_congr_right fun _ => ih reply (hnext reply)

/-- Work that calls an operation performs it, in each of these ways. -/
theorem takes_call_iff {path : Path κ} :
    (ofWork n (.call operation args) : Errand κ _).Takes path y ↔ Performs n operation args path y := by
  rw [(ofWork_follows n (.call operation args)).takes_iff]
  constructor
  · intro h
    obtain ⟨here, rest, rfl, hfound⟩ := Station.takes_waiting.1 h
    cases hclosed : here.closed with
    | true =>
      rw [Station.after_look_closed hclosed] at hfound
      obtain ⟨rfl, rfl⟩ := Station.takes_leaving.1 hfound
      exact .closed hclosed
    | false =>
      cases hclient : here.client with
      | some client =>
        rw [Station.after_look_connected hclosed hclient] at hfound
        exact .again hclosed hclient (Station.takes_calling.1 hfound)
      | none =>
        rw [Station.after_look_vacant hclosed hclient] at hfound
        obtain ⟨reply, rest, rfl, hconnected⟩ := (Station.takes_move rfl).1 hfound
        cases reply with
        | error e =>
          obtain ⟨rfl, rfl⟩ := Station.takes_leaving.1 hconnected
          exact .unconnected hclosed hclient e
        | ok _ => exact .connected hclosed hclient (Station.takes_calling.1 hconnected)
  · intro h
    cases h with
    | closed hclosed =>
      refine Station.takes_waiting.2 ⟨_, _, rfl, ?_⟩
      rw [Station.after_look_closed hclosed]
      exact Station.takes_leaving.2 ⟨rfl, rfl⟩
    | unconnected hopen hclient e =>
      refine Station.takes_waiting.2 ⟨_, _, rfl, ?_⟩
      rw [Station.after_look_vacant hopen hclient]
      exact .move rfl (Station.takes_leaving.2 ⟨rfl, rfl⟩)
    | connected hopen hclient huses =>
      refine Station.takes_waiting.2 ⟨_, _, rfl, ?_⟩
      rw [Station.after_look_vacant hopen hclient]
      exact .move rfl (Station.takes_calling.2 huses)
    | again hopen hclient huses =>
      refine Station.takes_waiting.2 ⟨_, _, rfl, ?_⟩
      rw [Station.after_look_connected hopen hclient]
      exact Station.takes_calling.2 huses

end Errand

namespace Caller

/-- The actions of a caller, each with the reply to it. -/
abbrev Path := List ((a : Ask) × a.Reply)

/-- A caller sends work and waits for its result, unless it is refused. -/
inductive Posts (n : Nat) (w : Work) : Path → Except PoolError Yield → Prop
  | refused (e : PoolError) : Posts n w [⟨.submit n w, Except.error e⟩] (.error e)
  | answered (t : Nat) (result : Except PoolError Yield) :
      Posts n w [⟨.submit n w, Except.ok t⟩, ⟨.await t, result⟩] result

/-- A session is marked ready whose group has no state, unless it is ready. -/
def marks (c : Catalog) (id : String) (ready : Bool) : Path :=
  if !ready && c.isStateless (SessionKey.parse id).group then [⟨.markReady id, ()⟩] else []

/-- A caller asks for the session with an id and sends one work to it: the call of an operation, whose
    result it gets. -/
inductive Performs (c : Catalog) (id operation : String) (args : Fields) :
    Path → Except PoolError Normalized → Prop
  | unknown (e : PoolError) : Performs c id operation args [⟨.obtain id, Except.error e⟩] (.error e)
  | called {n : Nat} {ready : Bool} {path : Path} {result : Except PoolError Yield}
      (posts : Posts n (.call operation args) path result) : Performs c id operation args
        (⟨.obtain id, Except.ok (n, ready)⟩ :: (marks c id ready ++ path)) (result.map Yield.normalized)

variable {c : Catalog} {id operation : String} {args : Fields} {path : Path}

theorem takes_send_iff {α : Type} {g : Yield → α} {n : Nat} {w : Work} {y : Except PoolError α} :
    (send n w >>= fun result => pure (result.map g)).Takes path y ↔
      ∃ result, Posts n w path result ∧ result.map g = y := by
  constructor
  · intro h
    obtain ⟨reply, rest, rfl, hsent⟩ := Program.takes_act.1 h
    cases reply with
    | error e =>
      obtain ⟨rfl, rfl⟩ := Program.takes_done.1 hsent
      exact ⟨_, .refused e, rfl⟩
    | ok t =>
      obtain ⟨result, rest, rfl, hended⟩ := Program.takes_act.1 hsent
      obtain ⟨rfl, rfl⟩ := Program.takes_done.1 hended
      exact ⟨_, .answered t result, rfl⟩
  · rintro ⟨result, hposts, rfl⟩
    cases hposts with
    | refused e => exact .act (.done _)
    | answered t => exact .act (.act (.done _))

theorem takes_marking_iff {α : Type} {b : Bool} {p : Caller α} {y : α} :
    Program.Takes (if b then act (.markReady id) >>= fun _ => p else p) path y ↔
      ∃ rest, path = (if b then [⟨.markReady id, ()⟩] else []) ++ rest ∧ p.Takes rest y := by
  cases b with
  | false => simp
  | true =>
    constructor
    · intro h
      obtain ⟨_, rest, rfl, later⟩ := Program.takes_act.1 h
      exact ⟨rest, rfl, later⟩
    · rintro ⟨rest, rfl, later⟩
      exact .act later

/-- A caller that calls an operation performs it, in each of these ways. -/
theorem takes_call_iff {y : Except PoolError Normalized} :
    (call c id operation args).Takes path y ↔ Performs c id operation args path y := by
  constructor
  · intro h
    obtain ⟨reply, rest, rfl, hobtained⟩ := Program.takes_act.1 h
    cases reply with
    | error e =>
      obtain ⟨rfl, rfl⟩ := Program.takes_done.1 hobtained
      exact .unknown e
    | ok found =>
      obtain ⟨rest, rfl, hmarked⟩ := takes_marking_iff.1 hobtained
      obtain ⟨result, hposts, rfl⟩ := takes_send_iff.1 hmarked
      exact .called hposts
  · intro h
    cases h with
    | unknown e => exact .act (.done _)
    | called hposts =>
      exact .act (takes_marking_iff.2 ⟨_, rfl, takes_send_iff.2 ⟨_, hposts, rfl⟩⟩)

/-- An invocation by any name of the operation, which loads no state, calls the operation. -/
theorem invoke_eq_call {name : String} {arguments : Arguments} (hname : Names name operation)
    (hargs : arguments.fields = .ok args) (hload : isLoad operation = false) :
    invoke c id name arguments = call c id operation args := by
  obtain rfl := names_iff.1 hname
  simp only [invoke, hargs, hload, Bool.false_eq_true, if_false]

end Caller

/-! ### Names of groups -/

/-- No name of a group holds the separator. -/
def Catalog.Plain (c : Catalog) : Prop := ∀ e ∈ c, separator ∉ e.1.toList

theorem Config.plain_of_valid {c : Config} (h : c.validate = .ok ()) :
    ∀ e ∈ c.groups, separator ∉ e.1.toList := by
  intro e he
  exact (groupFault?_eq_none.1 ((validate_eq_ok_iff.1 h).2 e he)).2.1

/-- Whatever the servers list, the groups of a catalog are those of the configuration. -/
theorem Discovery.plain_of_groups {handle : (a : Survey κ) → ρ → a.Reply × ρ} : ∀ {t : Table Locator}
    {c c' : Catalog} {x x' : ρ}, c.Plain → (∀ e ∈ t, separator ∉ e.1.toList) →
    (groups c t : Discovery κ _).run handle x = (.ok c', x') → c'.Plain
  | [], c, c', x, x', hc, _, h => by
    cases h
    exact hc
  | (g, l) :: t, c, c', x, x', hc, ht, h => by
    rw [groups, Program.run_bind] at h
    generalize (operations g l : Discovery κ _).run handle x = listed at h
    obtain ⟨result, x₁⟩ := listed
    cases result with
    | error e => cases h
    | ok ops =>
      refine plain_of_groups (fun e he => ?_) (fun e he => ht e (List.mem_cons_of_mem _ he)) h
      rcases Table.fst_of_mem_insert he with heq | he
      · rw [heq]
        exact ht _ List.mem_cons_self
      · exact hc e he

theorem Pool.plain_of_start {r : Remote ρ κ} {config : Config} {o : Options} {x x' : ρ} {p : Pool ρ κ}
    (h : start r config o x = (.ok p, x')) : p.catalog.Plain := by
  unfold start at h
  split at h
  · cases h
  · rename_i hvalid
    generalize hfound : (Discovery.ofConfig config).run r.answer x = survey at h
    obtain ⟨found, x₁⟩ := survey
    cases found with
    | error e => cases h
    | ok catalog =>
      cases h
      exact Discovery.plain_of_groups (c := []) nofun (Config.plain_of_valid hvalid) hfound

/-! ### Two spellings -/

theorem routedName_ne {g : String} (n : String) : routedName g n ≠ n := by
  intro h
  have hlength := congrArg (fun s => s.toList.length) h
  simp only [routedName_toList, List.length_append, List.length_cons] at hlength
  omega

theorem occurs_of_suffix {part l : List Char} (before : List Char) (h : occurs part l = true) :
    occurs part (before ++ l) = true := by
  induction before with
  | nil => exact h
  | cons c before ih =>
    rw [List.cons_append, occurs, ih, Bool.or_true]

/-- What stands behind a separator in a name that loads no state loads none either. -/
theorem isLoad_of_routedName {g n : String} (h : isLoad (routedName g n) = false) : isLoad n = false := by
  rw [Bool.eq_false_iff]
  intro hn
  rw [isLoad, routedName_toList, List.append_cons, occurs_of_suffix _ hn] at h
  cases h

/-- An invocation by a name performs an operation. -/
structure Performed (r : Remote ρ κ) (c : Catalog) (id name : String) (arguments : Arguments) (operation : String)
    (args : Fields) : Prop where
  /-- Whatever the replies, the caller sends the call of it, and does nothing else. -/
  caller : ∀ path y, (Caller.invoke c id name arguments).Takes path y ↔
    Caller.Performs c id operation args path y
  /-- Whatever the state of the session, the job makes it. -/
  job : ∀ n path y, (Errand.ofWork n (.call operation args) : Errand κ _).Takes path y ↔
    Errand.Performs n operation args path y
  /-- Between two commands, on servers that hold no call up, it is tried. -/
  tried : r.Prompt → ∀ p : Pool ρ κ, p.catalog = c → p.Steady → ∀ n s, p.front.Admits id n s →
    ∃ a p', Attempts r s.locator p.shared.remote operation args s.client a ∧
      p.Called r id name arguments operation args n s a p'

section
variable {r : Remote ρ κ} {c : Catalog} {id name operation operation' : String} {arguments : Arguments}
  {args : Fields}

theorem performed (hname : Names name operation) (hargs : arguments.fields = .ok args)
    (hload : isLoad operation = false) : Performed r c id name arguments operation args where
  caller path y := by
    rw [Caller.invoke_eq_call hname hargs hload]
    exact Caller.takes_call_iff
  job _ _ _ := Errand.takes_call_iff
  tried hr p hc hp n s hs := by
    obtain ⟨a, p', hattempts, hcalled, -⟩ := hp.called hr hname hargs hload hs
    exact ⟨a, p', hattempts, hcalled⟩

/-- An invocation performs no other operation: one that is refused shows what it would have called. -/
theorem Performed.unique (h : Performed r c id name arguments operation args)
    (h' : Performed r c id name arguments operation' args) : operation = operation' := by
  have hpath : Caller.Performs c id operation args
      [⟨.obtain id, Except.ok (0, true)⟩, ⟨.submit 0 (.call operation args), Except.error .workerClosed⟩]
      (.error .workerClosed) := .called (.refused .workerClosed)
  have hpath' := (h'.caller _ _).1 ((h.caller _ _).2 hpath)
  generalize hp : [_, _] = path, (Except.error PoolError.workerClosed : Except PoolError Normalized) = y at hpath'
  cases hpath' with
  | unknown e => cases hp
  | called hposts =>
    obtain ⟨hhead, htail⟩ := List.cons.inj hp
    cases hhead
    cases hposts <;> cases htail
    rfl

end

/-- Two orders come to the same, alone in any state of a pool and among other callers. -/
structure Order.Alike (r : Remote ρ κ) (c : Catalog) (o o' : Order) : Prop where
  run : ∀ p : Pool ρ κ, p.run r (o.program c) = p.run r (o'.program c)
  heard : ∀ p : Pool ρ κ, p.heard r (o.program c) = p.heard r (o'.program c)
  program : o.program c = o'.program c

/-- Names of one operation make one order. -/
theorem Order.alike_of_names {r : Remote ρ κ} {c : Catalog} {id name name' operation : String}
    {arguments : Arguments} (h : Names name operation) (h' : Names name' operation) :
    Alike r c (.invoke id name arguments) (.invoke id name' arguments) := by
  have hprogram : (invoke id name arguments).program c = (invoke id name' arguments).program c := by
    simp only [program, Caller.invoke, names_iff.1 h, names_iff.1 h']
  exact ⟨fun p => by rw [hprogram], fun p => by rw [hprogram], hprogram⟩

/-- The two spellings of an operation of a group. -/
structure Spelled (r : Remote ρ κ) (c : Catalog) (id g n : String) (arguments : Arguments) (args : Fields) :
    Prop where
  /-- The routed name means the operation. -/
  routed : Performed r c id (routedName g n) arguments n args
  /-- The bare name means it if it holds no separator, and not otherwise. -/
  bare : Performed r c id n arguments n args ↔ separator ∉ n.toList
  agree : separator ∉ n.toList →
    Order.Alike r c (.invoke id n arguments) (.invoke id (routedName g n) arguments)
  /-- With a separator the bare name means what stands behind the first one, as the routed name of that does. -/
  behind : ∀ a b, separator ∉ a.toList → n = routedName a b → Performed r c id n arguments b args ∧
    Order.Alike r c (.invoke id n arguments) (.invoke id (routedName g b) arguments)

/-- In a pool for a configuration every operation has the two spellings. -/
theorem Pool.spelled {r : Remote ρ κ} {config : Config} {o : Options} {x x' : ρ} {made : Pool ρ κ}
    (hstart : start r config o x = (.ok made, x')) {g n : String} (hn : made.catalog.Exposes g n)
    (hload : isLoad n = false) {arguments : Arguments} {args : Fields} (hargs : arguments.fields = .ok args)
    (id : String) : Spelled r made.catalog id g n arguments args := by
  obtain ⟨ops, hops, -⟩ := hn
  obtain ⟨e, he, rfl, -⟩ := Catalog.mem_of_operations? hops
  have hgroup : separator ∉ e.1.toList := plain_of_start hstart e he
  have hbehind : ∀ a b, separator ∉ a.toList → n = routedName a b →
      Performed r made.catalog id n arguments b args := by
    rintro a b ha rfl
    exact performed (.routed ha b) hargs (isLoad_of_routedName hload)
  exact {
    routed := performed (.routed hgroup n) hargs hload
    bare := by
      refine ⟨fun h => ?_, fun hwhole => performed (.bare hwhole) hargs hload⟩
      rcases SessionKey.bare_or_routed n with hwhole | ⟨a, b, ha, heq⟩
      · exact hwhole
      · exact absurd (heq.symm.trans (h.unique (hbehind a b ha heq))) (routedName_ne b)
    agree := fun hwhole => Order.alike_of_names (.bare hwhole) (.routed hgroup n)
    behind := by
      intro a b ha heq
      refine ⟨hbehind a b ha heq, ?_⟩
      subst heq
      exact Order.alike_of_names (.routed ha b) (.routed hgroup b) }

/-- A server with two operations, of which one has a separator in its name. -/
def clerk : Remote Unit Unit where
  connect _ _ := (.ok (), ())
  list _ _ := ((.ok [⟨"get-item", "", .null⟩, ⟨"sum", "", .null⟩], ()), ())
  call _ operation _ _ :=
    ((.replied (if operation = "get-item" ∨ operation = "sum" then .ok operation
      else .error (.rejected ("Unknown tool: " ++ operation))), ()), ())
  close _ _ := (.ok (), ())
  stalls _ _ _ := false

/-- A pool with this server. -/
def counter : Pool Unit Unit where
  catalog := [("shop", ⟨⟨"shop.py", none, []⟩, [⟨"get-item", "", .null⟩, ⟨"sum", "", .null⟩]⟩)]
  options := {}
  shared := { remote := () }
  worker := .afterOne

theorem spelled_counter : Spelled clerk counter.catalog "shop-1" "shop" "sum" (.structured []) [] ∧
    Spelled clerk counter.catalog "shop-1" "shop" "get-item" (.text " ") [] ∧
    (counter.heard clerk (Caller.invoke counter.catalog "shop-1" "sum" (.structured [("n", .null)]))).map Heard.move =
      [.connect, .call "sum" [("n", .null)]] ∧
    (counter.heard clerk (Caller.invoke counter.catalog "shop-1" "shop-sum" (.text ""))).map Heard.move =
      [.connect, .call "sum" []] ∧
    (counter.heard clerk (Caller.invoke counter.catalog "shop-1" "shop-get-item" (.text " "))).map Heard.move =
      [.connect, .call "get-item" []] ∧
    (counter.heard clerk (Caller.invoke counter.catalog "shop-1" "get-item" (.text " "))).map Heard.move =
      [.connect, .call "item" []] := by
  have hstart : Pool.start clerk ⟨[("shop", ⟨"shop.py", none, []⟩)]⟩ {} () = (.ok counter, ()) := rfl
  exact ⟨Pool.spelled hstart ⟨_, rfl, by decide⟩ (by decide) rfl "shop-1",
    Pool.spelled hstart ⟨_, rfl, by decide⟩ (by decide) rfl "shop-1", rfl, rfl, rfl, rfl⟩

/-- The bare name of an operation with a separator is taken for another operation, which is not there. -/
theorem misspelled_counter :
    Pool.start clerk ⟨[("shop", ⟨"shop.py", none, []⟩)]⟩ {} () = (.ok counter, ()) ∧
    counter.catalog.Exposes "shop" "get-item" ∧ isLoad "get-item" = false ∧
    (counter.run clerk (Caller.invoke counter.catalog "shop-1" "get-item" (.structured []))).1 =
      .finished (.error (.rejected "Unknown tool: item")) ∧
    (counter.run clerk (Caller.invoke counter.catalog "shop-1" "shop-get-item" (.structured []))).1 =
      .finished (.ok (.ofText "get-item")) := by
  exact ⟨rfl, ⟨_, rfl, by decide⟩, by decide, rfl, rfl⟩

end SessionPool
