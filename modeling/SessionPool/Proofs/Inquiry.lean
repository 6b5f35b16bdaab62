import SessionPool.Pool
import SessionPool.Proofs.RoundTrip

/-! Inquiry: how the operations of the groups are found out. The groups are asked in turn, in the order of
    their names, and the client of one is closed before the next is connected to, whether it listed its
    operations or not. The first group that cannot be asked ends the survey with a failure that names it; if
    there is none, the catalog has all groups with what their servers listed. Whether clients can be closed
    makes no difference. -/

namespace SessionPool
variable {ρ κ : Type}

namespace Program
variable {A : Type} {R : A → Type} {α β σ : Type}

/-- What a handler is asked until a program ends, each with the reply. -/
def talk (handle : (a : A) → σ → R a × σ) : Program A R α → σ → List ((a : A) × R a)
  | done _, _ => []
  | act a next, s => ⟨a, (handle a s).1⟩ :: talk handle (next (handle a s).1) (handle a s).2

theorem talk_bind (handle : (a : A) → σ → R a × σ) (f : α → Program A R β) :
    ∀ (p : Program A R α) (s : σ),
      talk handle (p >>= f) s = talk handle p s ++ talk handle (f (run handle p s).1) (run handle p s).2
  | done _, _ => rfl
  | act a next, s => congrArg (_ :: ·) (talk_bind handle f (next (handle a s).1) (handle a s).2)

end Program

/-- What is said during a survey. -/
abbrev Survey.Talk (κ : Type) := List ((a : Survey κ) × a.Reply)

/-- How it goes to ask the server of a group for its operations. -/
inductive Inquiry (κ : Type) where
  /-- The server is not reached. -/
  | unreached (e : RemoteError)
  /-- A client is connected, which lists the operations or fails to. -/
  | heard (client : κ) (listed : Except RemoteError (List Operation)) (after : κ)
      (closed : Except RemoteError Unit)

namespace Inquiry

/-- What comes of it. -/
def result : Inquiry κ → Except RemoteError (List Operation)
  | unreached e => .error e
  | heard _ listed _ _ => listed

/-- What is said: a client that was connected is closed, once, and that is the last thing. -/
def talk (l : Locator) : Inquiry κ → Survey.Talk κ
  | unreached e => [⟨.connect l, Except.error e⟩]
  | heard client listed after closed =>
    [⟨.connect l, Except.ok client⟩, ⟨.list client, (listed, after)⟩, ⟨.close after, closed⟩]

end Inquiry

/-- The servers, with other replies to being closed. -/
def Remote.closing (r : Remote ρ κ) (replies : κ → ρ → Except RemoteError Unit) : Remote ρ κ :=
  { r with close := fun client x => (replies client x, (r.close client x).2) }

namespace Discovery

/-- A group that is asked, and how that goes. -/
structure Asked (κ : Type) where
  group : String
  locator : Locator
  inquiry : Inquiry κ

/-- What is said to the server of the group. -/
def Asked.talk (a : Asked κ) : Survey.Talk κ := a.inquiry.talk a.locator

variable {r : Remote ρ κ} {c : Catalog} {t : Table Locator} {talk later : Survey.Talk κ}
  {result : Except PoolError Catalog} {asked : List (Asked κ)} {g : String} {l : Locator} {q : Inquiry κ}

/-- How groups are added to a catalog: which of them are asked, what is said, and what comes of it. -/
structure Adds (c : Catalog) (t : Table Locator) (talk : Survey.Talk κ)
    (result : Except PoolError Catalog) (asked : List (Asked κ)) : Prop where
  /-- The groups are asked from the first one on, each at its place. -/
  groups : (asked.map fun a => (a.group, a.locator)) <+: t
  /-- They are asked in turn, and nothing else is said. -/
  talk_eq : talk = asked.flatMap Asked.talk
  /-- A group that fails is the last, and the failure names it. -/
  failed : ∀ before a after, asked = before ++ a :: after → ∀ e, a.inquiry.result = .error e →
    after = [] ∧ result = .error (.unexpected ("group '" ++ a.group ++ "': " ++ e.message))
  /-- If no group fails all are asked, and all are added, each with its place and what was listed for it. -/
  whole : (∀ a ∈ asked, a.inquiry.result.isOk = true) →
    (asked.map fun a => (a.group, a.locator)) = t ∧ ∃ added : Catalog, result = .ok (c ++ added) ∧
      (added.map fun e => (e.1, e.2.locator, (Except.ok e.2.operations : Except RemoteError _))) =
        asked.map fun a => (a.group, a.locator, a.inquiry.result)

theorem Adds.nil : Adds c [] ([] : Survey.Talk κ) (.ok c) [] where
  groups := List.nil_prefix
  talk_eq := rfl
  failed before a after h := by simp at h
  whole _ := ⟨rfl, [], by simp, rfl⟩

theorem Adds.stopped {e : RemoteError} (hq : q.result = .error e) :
    Adds c ((g, l) :: t) (q.talk l) (.error (failure g e)) [⟨g, l, q⟩] where
  groups := ⟨t, rfl⟩
  talk_eq := (List.append_nil _).symm
  failed before a after h e' he' := by
    obtain ⟨rfl, rfl, rfl⟩ : before = [] ∧ ⟨g, l, q⟩ = a ∧ after = [] := by
      cases before <;> simp_all
    obtain rfl : e = e' := Except.error.inj (hq.symm.trans he')
    exact ⟨rfl, rfl⟩
  whole hok := by
    have hthis := hok _ List.mem_cons_self
    rw [hq] at hthis
    cases hthis

theorem Adds.cons {ops : List Operation} (hq : q.result = .ok ops)
    (h : Adds (c ++ [(g, ⟨l, ops⟩)]) t later result asked) :
    Adds c ((g, l) :: t) (q.talk l ++ later) result (⟨g, l, q⟩ :: asked) where
  groups := List.prefix_cons_inj _ |>.2 h.groups
  talk_eq := congrArg (q.talk l ++ ·) h.talk_eq
  failed before a after heq e he := by
    cases before with
    | nil =>
      cases heq
      cases hq.symm.trans he
    | cons b before => exact h.failed before a after (List.cons.inj heq).2 e he
  whole hok := by
    obtain ⟨hall, added, hresult, hadded⟩ := h.whole fun a ha => hok a (List.mem_cons_of_mem _ ha)
    refine ⟨congrArg ((g, l) :: ·) hall, (g, ⟨l, ops⟩) :: added, by simpa using hresult, ?_⟩
    rw [List.map_cons, List.map_cons, hadded, hq]

theorem operations_talk (g : String) (l : Locator) (x : ρ) : ∃ q : Inquiry κ,
    (operations g l).talk r.answer x = q.talk l ∧
    ((operations g l).run r.answer x).1 = q.result.mapError (failure g) := by
  simp only [operations, Program.ask_bind, Program.talk, Program.run, Remote.answer]
  generalize r.connect l x = connected
  obtain ⟨client | client, y⟩ := connected
  · exact ⟨.unreached client, rfl, rfl⟩
  · exact ⟨.heard client (r.list client y).1.1 (r.list client y).1.2 _, rfl, rfl⟩

/-- Groups that come after all of a catalog are added at its end. -/
theorem groups_adds : ∀ (t : Table Locator) (c : Catalog) (x : ρ), Table.Sorted t →
    (∀ e ∈ c, ∀ e' ∈ t, e.1 < e'.1) →
    ∃ asked, Adds c t ((groups c t).talk r.answer x) ((groups c t).run r.answer x).1 asked
  | [], _, _, _, _ => ⟨[], .nil⟩
  | (g, l) :: t, c, x, hsorted, hbelow => by
    obtain ⟨q, htalk, hresult⟩ := operations_talk (r := r) g l x
    rw [groups, Program.talk_bind, Program.run_bind, htalk]
    cases hq : q.result with
    | error e =>
      rw [hresult, hq]
      exact ⟨_, (List.append_nil (q.talk l)).symm ▸ Adds.stopped hq⟩
    | ok ops =>
      obtain ⟨hhead, htail⟩ := List.pairwise_cons.1 hsorted
      have hend : Table.insert g ⟨l, ops⟩ c = c ++ [(g, ⟨l, ops⟩)] :=
        Table.insert_of_gt _ fun e he => hbelow e he _ List.mem_cons_self
      have hbelow' : ∀ e ∈ Table.insert g ⟨l, ops⟩ c, ∀ e' ∈ t, e.1 < e'.1 := by
        intro e he e' he'
        rcases Table.fst_of_mem_insert he with heq | he
        · exact heq ▸ hhead e' he'
        · exact hbelow e he e' (List.mem_cons_of_mem _ he')
      obtain ⟨asked, hlater⟩ := groups_adds t _ ((operations g l).run r.answer x).2 htail hbelow'
      rw [hresult, hq]
      exact ⟨⟨g, l, q⟩ :: asked, .cons hq (hend ▸ hlater)⟩

/-! ### Closing -/

theorem operations_closing (g : String) (l : Locator) (replies : κ → ρ → Except RemoteError Unit) (x : ρ) :
    (operations g l).run (r.closing replies).answer x = (operations g l).run r.answer x ∧
    ((operations g l).talk (r.closing replies).answer x).map (·.1) =
      ((operations g l).talk r.answer x).map (·.1) := by
  simp only [operations, Program.ask_bind, Program.talk, Program.run, Remote.answer, Remote.closing]
  generalize r.connect l x = connected
  obtain ⟨client | client, y⟩ := connected <;> exact ⟨rfl, rfl⟩

theorem groups_closing (replies : κ → ρ → Except RemoteError Unit) : ∀ (t : Table Locator) (c : Catalog) (x : ρ),
    (groups c t).run (r.closing replies).answer x = (groups c t).run r.answer x ∧
    ((groups c t).talk (r.closing replies).answer x).map (·.1) = ((groups c t).talk r.answer x).map (·.1)
  | [], _, _ => ⟨rfl, rfl⟩
  | (g, l) :: t, c, x => by
    obtain ⟨hrun, htalk⟩ := operations_closing (r := r) g l replies x
    rw [groups, Program.run_bind, Program.run_bind, Program.talk_bind, Program.talk_bind, List.map_append,
      List.map_append, htalk, hrun]
    cases ((operations g l).run r.answer x).1 with
    | error e => exact ⟨rfl, rfl⟩
    | ok ops =>
      obtain ⟨hrun', htalk'⟩ := groups_closing replies t (Table.insert g ⟨l, ops⟩ c)
        ((operations g l).run r.answer x).2
      exact ⟨hrun', congrArg (_ ++ ·) htalk'⟩

/-! ### The survey -/

/-- How the operations of the groups of a configuration are found out. -/
structure Surveys (r : Remote ρ κ) (c : Config) (x : ρ) (asked : List (Asked κ)) : Prop where
  /-- The groups are asked in the order of their names. -/
  ordered : (asked.map Asked.group).Pairwise (· < ·)
  adds : Adds [] c.groups ((ofConfig c).talk r.answer x) ((ofConfig c).run r.answer x).1 asked
  /-- Whatever the servers reply to being closed, they are asked the same, and what comes of it is the same. -/
  closing : ∀ replies : κ → ρ → Except RemoteError Unit,
    (ofConfig c).run (r.closing replies).answer x = (ofConfig c).run r.answer x ∧
    ((ofConfig c).talk (r.closing replies).answer x).map (·.1) = ((ofConfig c).talk r.answer x).map (·.1)
  /-- A pool for the configuration has this catalog, or fails to start with this failure. -/
  started : c.validate = .ok () → ∀ o,
    ((Pool.start r c o x).1.map Pool.catalog, (Pool.start r c o x).2) = (ofConfig c).run r.answer x

theorem surveys (r : Remote ρ κ) {c : Config} (hc : Table.Sorted c.groups) (x : ρ) :
    ∃ asked, Surveys r c x asked := by
  obtain ⟨asked, hadds⟩ := groups_adds (r := r) c.groups [] x hc nofun
  have hordered : (asked.map fun a => (a.group, a.locator)).Pairwise fun e e' => e.1 < e'.1 :=
    List.Pairwise.sublist hadds.groups.sublist hc
  refine ⟨asked, ?_, hadds, fun replies => groups_closing replies c.groups [] x, fun hvalid o => ?_⟩
  · rw [List.pairwise_map] at hordered ⊢
    exact hordered
  · simp only [Pool.start, hvalid]
    generalize (ofConfig c).run r.answer x = survey
    obtain ⟨e | catalog, y⟩ := survey <;> rfl

/-- A row of doors, of which one opens to someone who lists nothing and cannot be seen off. The servers count
    what is asked of them. -/
def doors : Remote Nat String where
  connect l n := (if l.path = "wall" then .error (.connect "no door") else .ok l.path, n + 1)
  list door n :=
    ((if door = "mute" then .error (.closed door) else .ok [⟨"ring", "", .null⟩], door), n + 1)
  call _ _ _ n := ((.died, ""), n)
  close door n := (if door = "mute" then .error (.unexpected "stuck") else .ok (), n + 1)
  stalls _ _ _ := false

/-- Three groups of such doors. -/
def landing : Config where
  groups := [("a", ⟨"bell", none, []⟩), ("b", ⟨"mute", none, []⟩), ("c", ⟨"wall", none, []⟩)]

/-- The third group is not asked: the second fails, and its client is closed before that is told. -/
theorem surveys_landing : (∃ asked, Surveys doors landing 0 asked) ∧
    (ofConfig landing).run doors.answer 0 = (.error (failure "b" (.closed "mute")), 6) :=
  ⟨surveys doors (by rw [Table.Sorted]; decide) 0, rfl⟩

end Discovery
end SessionPool
