import SessionPool.Proofs.Projection
import SessionPool.Proofs.Schedule
import SessionPool.Proofs.Serial

/-! Replays: the work of a session once more, by its own programs, on a session that is alone in the world
    and whose server says what it has said before, word by word. Each job makes as many moves as it has
    made, and then the next one begins. The main statement is `Scene.Run.serial`: a session in an
    interleaving, whatever else goes on in the pool, is as in the replay. -/

namespace SessionPool

/-- Makes the next move of a program, if it goes. -/
def Program.stride {A : Type} {R : A → Type} {α σ : Type} (host : Host σ A R) :
    Option (Program A R α) × σ → Option (Program A R α) × σ
  | (some (.act a next), s) =>
    match host a s with
    | .went reply s _ => (some (next reply), s)
    | .waits s => (some (.act a next), s)
    | .occupies s => (some (.act a next), s)
    | .died s _ => (none, s)
  | x => x

/-- Makes so many moves. -/
def Program.strides {A : Type} {R : A → Type} {α σ : Type} (host : Host σ A R) :
    Nat → Option (Program A R α) × σ → Option (Program A R α) × σ
  | 0, x => x
  | moves + 1, x => stride host (strides host moves x)

/-- The words that a server has still to say, and the moves that it was asked by. -/
structure Transcript (κ : Type) where
  words : List (Word κ)
  asked : List (Move κ) := []

namespace Transcript
variable {κ : Type}

def next (tr : Transcript κ) (m : Move κ) : Transcript κ := ⟨tr.words.tail, tr.asked ++ [m]⟩

/-- Servers that read out a transcript. -/
def remote : Remote (Transcript κ) κ where
  connect _ tr :=
    match tr.words with
    | .connected reply :: _ => (reply, tr.next .connect)
    | _ => (.error (.unexpected ""), tr)
  list client tr := ((.ok [], client), tr)
  call client operation args tr :=
    match tr.words with
    | .answered answer client :: _ => ((answer, client), tr.next (.call operation args))
    | _ => ((.died, client), tr)
  close client tr :=
    match tr.words with
    | .closed reply :: _ => (reply, tr.next (.close client))
    | _ => (.ok (), tr)
  stalls _ _ _ := false

theorem word_of_fits {s : Session κ} {m : Move κ} {word : Word κ} {rest : List (Word κ)}
    (tr : Transcript κ) (hw : word.Fits s m) (hc : word ≠ .missing) (htr : tr.words = word :: rest) :
    remote.word s tr m = some (word, ⟨rest, tr.asked ++ [m]⟩) := by
  obtain ⟨words, asked⟩ := tr
  subst htr
  cases m with
  | connect =>
    cases word with
    | connected reply => rfl
    | _ => exact hw.elim
  | call operation args =>
    cases word with
    | answered answer client =>
      obtain ⟨c, hclient⟩ := Option.isSome_iff_exists.1 hw
      simp only [Remote.word, hclient]
      rfl
    | missing => exact absurd rfl hc
    | _ => exact hw.elim
  | close client =>
    cases word with
    | closed reply => rfl
    | _ => exact hw.elim
  | _ => exact hw.elim

end Transcript

/-- Runs work in turn, each with a number of moves to make: what is left of each, and what is shared
    then. The session has the place `0`. -/
def inTurn {κ : Type} : List (Nat × Work × Nat) → Shared (Transcript κ) κ →
    List (Nat × Option (Errand κ (Except PoolError Yield))) × Shared (Transcript κ) κ
  | [], world => ([], world)
  | (t, w, moves) :: rest, world =>
    let (left, world) :=
      Program.strides (Shared.host Transcript.remote t) moves (some (Errand.ofWork 0 w), world)
    let (others, world) := inTurn rest world
    ((t, left) :: others, world)

namespace Doing
variable {κ : Type}

def word? : Doing κ → Option (Word κ)
  | heard _ word => some word
  | _ => none

/-- The move that was answered. -/
def answered? : Doing κ → Option (Move κ)
  | heard m _ => some m
  | _ => none

/-- The entry of the log that was made. -/
def entry? : Doing κ → Option LogEntry
  | moved (.record operation args text) => some (.tool operation (.obj args) text)
  | _ => none

end Doing

/-- What is left of a job at a station. -/
def Station.Left {κ : Type} (st : Station κ) : Option (Errand κ (Except PoolError Yield)) → Prop
  | some p => Errand.Follows 0 p st
  | none => st = .dead

namespace Station
variable {κ : Type} {s : Session κ} {t : Nat} {st : Station κ} {m : Move κ}
  {left : Option (Errand κ (Except PoolError Yield))} {world : Shared (Transcript κ) κ}

theorem Left.act (h : st.Left left) (hm : st.move = some m) :
    ∃ next : m.Reply → Errand κ (Except PoolError Yield), left = some (.act ⟨0, m⟩ next) ∧
      ∀ reply, Errand.Follows 0 (next reply) (st.after m reply) := by
  cases left with
  | none =>
    cases h
    cases hm
  | some p =>
    cases p with
    | done result =>
      cases h
      cases hm
    | act d next =>
      obtain ⟨n, m'⟩ := d
      obtain ⟨rfl, hm', hnext⟩ := h
      cases Option.some.inj (hm.symm.trans hm')
      exact ⟨next, rfl, hnext⟩

theorem Left.of_ended {result : Except PoolError Yield} (h : (ended result : Station κ).Left left) :
    left = some (.done result) := by
  cases left with
  | none => cases h
  | some p =>
    cases p with
    | done result' => cases h; rfl
    | act d next => cases h.2.1

theorem Left.of_dead (h : (dead : Station κ).Left left) : left = none := by
  cases left with
  | none => rfl
  | some p =>
    cases p with
    | done result => cases h
    | act d next => cases h.2.1

theorem Left.stride_own {reply : m.Reply} (h : st.Left left) (hm : st.move = some m)
    (hs : world.sessions = [s]) (ho : m.own? s = some reply) (hl : m = .lock → s.line = []) :
    ∃ left', Program.stride (Shared.host Transcript.remote t) (left, world) =
      (left', world.own t 0 s m) ∧ (st.after m reply).Left left' := by
  obtain ⟨next, rfl, hnext⟩ := h.act hm
  have hat : world.sessions[0]? = some s := by rw [hs]; rfl
  rcases Shared.host_own (r := Transcript.remote) (t := t) hat ho with ⟨woken, hgo, -⟩ | ⟨-, rfl, hwait⟩
  · exact ⟨some (next reply), by rw [Program.stride, hgo], hnext reply⟩
  · rw [Session.lined, hl rfl] at hwait
    exact absurd rfl hwait

theorem Left.stride_heard {word : Word κ} {rest : List (Word κ)} (h : st.Left left)
    (hm : st.move = some m) (hs : world.sessions = [s]) (hw : word.Fits s m) (hc : word ≠ .missing)
    (hwords : world.remote.words = word :: rest) :
    ∃ left', Program.stride (Shared.host Transcript.remote t) (left, world) =
      (left', world.heard t 0 s word ⟨rest, world.remote.asked ++ [m]⟩) ∧
        (st.heard m word).Left left' := by
  obtain ⟨next, rfl, hnext⟩ := h.act hm
  have hat : world.sessions[0]? = some s := by rw [hs]; rfl
  have hword := Transcript.word_of_fits world.remote hw hc hwords
  obtain ⟨woken, hgo⟩ := Shared.host_prompt (t := t) (fun _ _ _ => rfl) hat hword
  rw [Program.stride, hgo, heard]
  cases word.reply m with
  | none => exact ⟨none, rfl, rfl⟩
  | some reply => exact ⟨some (next reply), rfl, hnext reply⟩

end Station

/-- Adds entries to a log. -/
def CallLog.write (log : CallLog) (id : String) (entries : List LogEntry) : CallLog :=
  entries.foldl (fun log e => log.record id e) log

theorem CallLog.write_append (log : CallLog) (id : String) (es es' : List LogEntry) :
    log.write id (es ++ es') = (log.write id es).write id es' := List.foldl_append

theorem CallLog.after_write {κ : Type} (log : CallLog) (id : String) (m : Move κ) :
    log.after id m = log.write id ([Doing.moved m].filterMap Doing.entry?) := by
  cases m <;> rfl

/-- How far turns of work lead a world with one session, and what they leave of the work. -/
structure Replayed {κ : Type} (s : Session κ) (world : Shared (Transcript κ) κ) (ds : List (Doing κ))
    (s' : Session κ) (world' : Shared (Transcript κ) κ) (rest : List (Word κ)) : Prop where
  sessions : world'.sessions = [s']
  remote : world'.remote = ⟨rest, world.remote.asked ++ ds.filterMap Doing.answered?⟩
  log : world'.log = world.log.write s.id (ds.filterMap Doing.entry?)
  id : s'.id = s.id

/-- One job alone, by its program. -/
theorem Alone.replay {κ : Type} {s s' : Session κ} {t : Nat} {w : Work} {st : Station κ}
    {ds : List (Doing κ)} (h : Alone t w s ds s' st) {world : Shared (Transcript κ) κ}
    {rest : List (Word κ)} (hs : world.sessions = [s])
    (hwords : world.remote.words = ds.filterMap Doing.word? ++ rest) :
    ∃ left world', Program.strides (Shared.host Transcript.remote t) ds.length
        (some (Errand.ofWork 0 w), world) = (left, world') ∧ st.Left left ∧
      Replayed s world ds s' world' rest := by
  induction h generalizing rest with
  | start =>
    refine ⟨_, world, rfl, Errand.ofWork_follows 0 w, hs, ?_, rfl, rfl⟩
    obtain ⟨sessions, log, words, asked⟩ := world
    cases hwords
    exact congrArg (Transcript.mk _) (List.append_nil _).symm
  | @move ds s' st m reply alone hm ho hl ih =>
    have hsame : (ds ++ [Doing.moved m]).filterMap Doing.word? = ds.filterMap Doing.word? :=
      List.filterMap_append.trans (List.append_nil _)
    rw [hsame] at hwords
    obtain ⟨left, world', heq, hleft, h⟩ := ih hwords
    obtain ⟨left', hgo, hleft'⟩ := hleft.stride_own (t := t) hm h.sessions ho hl
    refine ⟨left', world'.own t 0 s' m, ?_, hleft', ?_, ?_, ?_, (Session.after_id ..).trans h.id⟩
    · rw [List.length_append, List.length_singleton, Program.strides, heq, hgo]
    · show world'.sessions.set 0 _ = _
      rw [h.sessions]
      rfl
    · rw [List.filterMap_append]
      exact h.remote.trans (congrArg (Transcript.mk _) (congrArg _ (List.append_nil _).symm))
    · show world'.log.after s'.id m = _
      rw [CallLog.after_write, h.log, h.id, List.filterMap_append, CallLog.write_append]
  | @hear ds s' st m word alone hm hw hc ih =>
    rw [List.filterMap_append, List.append_assoc] at hwords
    obtain ⟨left, world', heq, hleft, h⟩ := ih hwords
    have hnext : world'.remote.words = word :: rest := by rw [h.remote]; rfl
    obtain ⟨left', hgo, hleft'⟩ := hleft.stride_heard (t := t) hm h.sessions hw hc hnext
    refine ⟨left', world'.heard t 0 s' word ⟨rest, world'.remote.asked ++ [m]⟩, ?_, hleft', ?_, ?_, ?_,
      (Session.hear_id ..).trans h.id⟩
    · rw [List.length_append, List.length_singleton, Program.strides, heq, hgo]
    · show world'.sessions.set 0 _ = _
      rw [h.sessions]
      rfl
    · rw [List.filterMap_append, ← List.append_assoc]
      show Transcript.mk rest (world'.remote.asked ++ [m]) = _
      rw [h.remote]
      rfl
    · rw [List.filterMap_append]
      exact h.log.trans (congrArg _ (List.append_nil _).symm)

/-- All turns of a chain, one job after the other. -/
def Chain.turns {κ : Type} (ds : Nat → List (Doing κ)) (legs : List (Nat × Work)) : List (Doing κ) :=
  legs.flatMap fun x => ds x.1

/-- Work in series, by its programs. -/
theorem Chain.replay {κ : Type} {ds : Nat → List (Doing κ)}
    {units : Nat → Option (Work × Station κ)} {s' : Session κ} {rest : List (Word κ)} :
    ∀ {s : Session κ} {legs : List (Nat × Work)} {world : Shared (Transcript κ) κ},
      Chain ds units s legs s' → world.sessions = [s] →
      world.remote.words = (Chain.turns ds legs).filterMap Doing.word? ++ rest →
      ∃ lefts world', inTurn (legs.map fun x => (x.1, x.2, (ds x.1).length)) world = (lefts, world') ∧
        (∀ x ∈ legs, ∃ left st, (x.1, left) ∈ lefts ∧ units x.1 = some (x.2, st) ∧ st.Left left) ∧
        Replayed s world (Chain.turns ds legs) s' world' rest
  | s, [], world, h, hs, hwords => by
    cases h
    refine ⟨[], world, rfl, fun _ h => (nomatch h), hs, ?_, rfl, rfl⟩
    obtain ⟨sessions, log, words, asked⟩ := world
    cases hwords
    exact congrArg (Transcript.mk _) (List.append_nil _).symm
  | s, (t, w) :: legs, world, ⟨s₁, st, ht, alone, h⟩, hs, hwords => by
    have hturns : Chain.turns ds ((t, w) :: legs) = ds t ++ Chain.turns ds legs := List.flatMap_cons
    rw [hturns, List.filterMap_append, List.append_assoc] at hwords
    obtain ⟨left, world₁, heq, hleft, h₁⟩ := alone.replay hs hwords
    obtain ⟨lefts, world₂, heq', hlefts, h₂⟩ := replay h h₁.sessions (by rw [h₁.remote])
    refine ⟨(t, left) :: lefts, world₂, ?_, fun x hx => ?_, ?_⟩
    · rw [List.map_cons, inTurn, heq]
      simp only [heq']
    · rcases List.mem_cons.1 hx with rfl | hx
      · exact ⟨left, st, List.mem_cons_self .., ht, hleft⟩
      · obtain ⟨left', st', hmem, hrest⟩ := hlefts x hx
        exact ⟨left', st', List.mem_cons_of_mem _ hmem, hrest⟩
    · rw [hturns]
      refine ⟨h₂.sessions, ?_, ?_, h₂.id.trans h₁.id⟩
      · rw [h₂.remote, h₁.remote, List.filterMap_append, List.append_assoc]
      · rw [h₂.log, h₁.log, h₁.id, List.filterMap_append, CallLog.write_append]

/-! ### The pool -/

/-- The entries that the work of a session made in the log. -/
def Note.entry? {κ : Type} : Note κ → Option LogEntry
  | .did _ d => d.entry?
  | _ => none

def entries {κ : Type} (past : List (Note κ)) : List LogEntry := past.filterMap Note.entry?

section
variable {κ β : Type} (past : List (Note κ)) {f : Doing κ → Option β}

/-- Whatever is told of turns that are seen outside, in the order of time. -/
theorem seen_filterMap (hf : ∀ d, f d ≠ none → d.isTurn && d.isSeen) :
    (seen past).filterMap f = past.filterMap fun e =>
      match e with
      | .did _ d => f d
      | .arrived _ _ => none := by
  rw [seen, List.filterMap_filterMap]
  refine List.filterMap_congr fun e _ => ?_
  cases e with
  | arrived _ _ => rfl
  | did t d =>
    show Option.bind (if d.isTurn && d.isSeen then some d else none) f = f d
    split
    · rfl
    · rename_i hseen
      cases hd : f d with
      | none => rfl
      | some x => exact absurd (hf d (hd ▸ Option.some_ne_none x)) hseen

/-- Whatever is told of turns that are seen outside, job by job. -/
theorem turns_filterMap (hf : ∀ d, f d ≠ none → d.isTurn && d.isSeen)
    (hseen : seen past = (arrivals past).flatMap fun x => (turns x.1 past).filter Doing.isSeen) :
    (Chain.turns (turns · past) (arrivals past)).filterMap f = (seen past).filterMap f := by
  rw [hseen, Chain.turns, List.filterMap_flatMap, List.filterMap_flatMap]
  refine List.flatMap_congr fun x _ => ?_
  rw [List.filterMap_filter]
  refine List.filterMap_congr fun d _ => ?_
  split
  · rfl
  · rename_i hnot
    cases hd : f d with
    | none => rfl
    | some y =>
      have := hf d (by rw [hd]; nofun)
      rw [Bool.and_eq_true] at this
      exact absurd this.2 hnot

end

section
variable {κ : Type} (past : List (Note κ))

theorem word_seen (d : Doing κ) (h : d.word? ≠ none) : (d.isTurn && d.isSeen) = true := by
  cases d with
  | heard _ _ => rfl
  | _ => exact absurd rfl h

theorem answered_seen (d : Doing κ) (h : d.answered? ≠ none) : (d.isTurn && d.isSeen) = true := by
  cases d with
  | heard _ _ => rfl
  | _ => exact absurd rfl h

theorem entry_seen (d : Doing κ) (h : d.entry? ≠ none) : (d.isTurn && d.isSeen) = true := by
  cases d with
  | moved m =>
    cases m with
    | record _ _ _ => rfl
    | _ => exact absurd rfl h
  | _ => exact absurd rfl h

theorem seen_words : (seen past).filterMap Doing.word? = (answers past).map fun a => a.2.2 := by
  rw [seen_filterMap past word_seen, answers, List.map_filterMap]
  refine List.filterMap_congr fun e _ => ?_
  cases e with
  | arrived _ _ => rfl
  | did t d => cases d <;> rfl

theorem seen_answered : (seen past).filterMap Doing.answered? = (answers past).map fun a => a.2.1 := by
  rw [seen_filterMap past answered_seen, answers, List.map_filterMap]
  refine List.filterMap_congr fun e _ => ?_
  cases e with
  | arrived _ _ => rfl
  | did t d => cases d <;> rfl

theorem seen_entries : (seen past).filterMap Doing.entry? = entries past := by
  rw [seen_filterMap past entry_seen, entries]
  refine List.filterMap_congr fun e _ => ?_
  cases e <;> rfl

end

/-- What an event does to the log of a pool whose sessions have certain ids. -/
def Event.write {κ : Type} (ids : List String) (log : CallLog) : Event κ → CallLog
  | .chatted session user assistant => log.record session (.chat user assistant)
  | .asked _ .clearLog _ => []
  | .work n _ d => log.write (ids[n]?.getD "") d.entry?.toList
  | _ => log

namespace Scene
variable {ρ κ : Type} {r : Remote ρ κ} {c : Catalog} {o : Options} {remote : ρ} {past : List (Event κ)}
  {S S' : Scene ρ κ} {n t : Nat} {e : Event κ}

/-- The ids of all sessions, live or not. -/
def names (S : Scene ρ κ) : List String := S.sessions.map Session.id

/-- A step adds sessions at most at the end, and writes into the log what its event says. -/
theorem Step.writes (h : Step r S e S') :
    (∃ new, S'.names = S.names ++ new) ∧ S'.pool.shared.log = e.write S'.names S.pool.shared.log := by
  have hname : ∀ {n : Nat} {s : Session κ}, S.sessions[n]? = some s → S.names[n]?.getD "" = s.id := by
    intro n s hs
    rw [names, List.getElem?_map, hs]
    rfl
  have hsame : ∀ {S' : Scene ρ κ}, S'.names = S.names → ∃ new, S'.names = S.names ++ new := fun h =>
    ⟨[], by rw [h, List.append_nil]⟩
  cases h with
  | ask hi ha =>
    cases Pool.answered ha with
    | @made id locator _ => exact ⟨⟨[id], List.map_append⟩, rfl⟩
    | marked _ hs => exact ⟨hsame (Shared.names_set hs rfl), rfl⟩
    | _ => exact ⟨hsame rfl, rfl⟩
  | giveUp hi hw ha =>
    obtain rfl := Pool.eq_of_giveUp hw ha
    exact ⟨hsame rfl, rfl⟩
  | @read m rest hm => exact ⟨hsame rfl, rfl⟩
  | @queue t d next w ht hd hw =>
    have hnames := Shared.host_names r t d S.pool.shared
    rw [hw] at hnames
    refine ⟨hsame hnames, ?_⟩
    cases hs : S.pool.shared.sessions[d.session]? with
    | none =>
      simp only [Shared.host, hs] at hw
      cases hw
      rfl
    | some s =>
      have hlog := Shared.host_log (r := r) (t := t) hs (.inr ⟨_, hw⟩)
      rw [hw] at hlog
      exact hlog
  | @move t d next reply w woken ht hd hw =>
    have hnames := Shared.host_names r t d S.pool.shared
    rw [hw] at hnames
    refine ⟨hsame hnames, ?_⟩
    cases hs : S.pool.shared.sessions[d.session]? with
    | none =>
      simp only [Shared.host, hs] at hw
      cases hw
    | some s =>
      show w.log = S.pool.shared.log.write ((w.sessions.map Session.id)[d.session]?.getD "") _
      rw [Shared.host_log_own hs hd hw, CallLog.after_write,
        show w.sessions.map Session.id = S.names from hnames, hname hs]
      rfl
  | @hear t d next reply w woken s word remote ht hf hs hr hw =>
    have hnames := Shared.host_names r t d S.pool.shared
    have hlog := Shared.host_log (r := r) (t := t) hs (.inl (Shared.host_remote (t := t) hs hr).1.isRemote)
    rw [hw] at hnames hlog
    exact ⟨hsame hnames, hlog⟩
  | @die t d next w woken s word remote ht hf hs hr hw =>
    have hnames := Shared.host_names r t d S.pool.shared
    have hlog := Shared.host_log (r := r) (t := t) hs (.inl (Shared.host_remote (t := t) hs hr).1.isRemote)
    rw [hw] at hnames hlog
    exact ⟨hsame hnames, hlog⟩
  | come _ | chat _ _ _ | send _ _ _ | yield _ _ | world _ | arrange _ _ _ _ _ _ => exact ⟨hsame rfl, rfl⟩

/-- The log of a pool is what the events wrote. -/
theorem Run.log (run : Run r c o remote past S) :
    S.pool.shared.log = past.foldl (Event.write S.names) [] := by
  induction run with
  | start => rfl
  | @step past e S S' run h ih =>
    obtain ⟨⟨new, hnew⟩, hlog⟩ := h.writes
    rw [List.foldl_append, List.foldl_cons, List.foldl_nil, hlog, ih]
    congr 1
    refine List.foldl_ext _ _ _ fun log x hx => ?_
    cases x with
    | work n t d =>
      -- What happened before happened on sessions that were there.
      have hn : n < S.names.length := by
        by_contra hn
        rw [names, List.length_map, Nat.not_lt] at hn
        have hnone := List.filterMap_eq_nil_iff.1 (run.kept.silent n hn) _ hx
        simp [Event.note?] at hnone
      rw [Event.write, Event.write, hnew, List.getElem?_append_left hn]
    | asked i a reply => cases a <;> rfl
    | _ => rfl

/-- The work of a session, as it was sent, with how many turns each has had. -/
def agenda (notes : List (Note κ)) : List (Nat × Work × Nat) :=
  (arrivals notes).map fun x => (x.1, x.2, (turns x.1 notes).length)

/-- A new session alone in the world, whose server says what it has said. -/
def world (s : Session κ) (notes : List (Note κ)) : Shared (Transcript κ) κ :=
  { sessions := [{ id := s.id, locator := s.locator }]
    remote := { words := (answers notes).map fun a => a.2.2 } }

/-- A session in a pool is as if its work were done in series, in the order in which it was sent. -/
structure Serial (S : Scene ρ κ) (n : Nat) (s : Session κ) (past : List (Event κ)) : Prop where
  /-- All work that was sent is there, whether or not its caller waits for it. -/
  sent : ∀ i w t, .asked i (.submit n w) (.ok t) ∈ past → (t, w) ∈ arrivals (notes n past)
  /-- It is there in the order in which it was sent, and once. -/
  ordered : (arrivals (notes n past)).Pairwise fun a b => a.1 < b.1
  /-- Work starts at most once and gives at most one result, and nothing else is done on the session. -/
  once : ∀ t, (notes n past).countP (Lane.starts t) ≤ 1 ∧ (notes n past).countP (Lane.yields t) ≤ 1 ∧
    ∀ d, .work n t d ∈ past → ∃ w, (t, w) ∈ arrivals (notes n past)
  /-- Nobody asks the server after later work has asked, or before an earlier question is answered. -/
  apart : (requests (notes n past)).Pairwise (fun a b => a.1 ≤ b.1) ∧ ∃ flight, flight.length ≤ 1 ∧
    requests (notes n past) = (answers (notes n past)).map (fun a => (a.1, a.2.1)) ++ flight
  /-- In series the work comes to the same session, has asked the same, and has logged the same; jobs
      that have finished have the same results, and those that have died have none. -/
  same : ∃ lefts shared s', inTurn (agenda (notes n past)) (world s (notes n past)) = (lefts, shared) ∧
    shared.sessions = [s'] ∧ s'.ready = s.ready ∧ s'.closed = s.closed ∧ s'.client = s.client ∧
    shared.remote = ⟨[], (answers (notes n past)).map fun a => a.2.1⟩ ∧
    shared.log = CallLog.write [] s.id (entries (notes n past)) ∧
    ∀ t w, S.works[t]? = some (n, w) →
      (∀ result, S.jobs[t]? = some (.finished result) → (t, some (.done result)) ∈ lefts) ∧
      (S.jobs[t]? = some .dropped → S.pool.worker.ended = false → (t, none) ∈ lefts)
  /-- The log of the pool is what the events wrote, those of the session among them. -/
  log : S.pool.shared.log = past.foldl (Event.write S.names) []

/-- Work that was sent is among the arrivals of its session. -/
theorem mem_arrivals_of_sent {i : Nat} {w : Work}
    (h : .asked i (.submit n w) (.ok t) ∈ past) : (t, w) ∈ arrivals (notes n past) :=
  mem_arrivals.2 (List.mem_filterMap.2 ⟨_, h, if_pos rfl⟩)

/-- Whatever happens in a pool, work that starts in the order in which it was sent is done in series, unless
    callers may mark the session ready from outside. -/
theorem Run.serial (run : Run r c o remote past S) {s : Session κ} (hs : S.sessions[n]? = some s)
    (hgroup : c.isStateless (SessionKey.parse s.id).group = false)
    (ho : Lane.InOrder (notes n past)) : S.Serial n s past := by
  obtain ⟨l, hl⟩ := run.kept.lanes n (List.getElem?_eq_some_iff.1 hs).1
  obtain rfl : l.session = s := Option.some.inj (hl.session.symm.trans hs)
  have hmarks : ¬ Marks c l.session.id := by
    rw [Marks, hgroup]
    nofun
  have lane := hl.run
  obtain ⟨⟨s', hchain, hcalm⟩, hseen⟩ := lane.inSeries hmarks ho
  refine ⟨fun _ _ _ => mem_arrivals_of_sent, lane.arrivals_sorted,
    fun t => ⟨lane.starts_le_one t, lane.yields_le_one t, fun d hd => ?_⟩,
    ⟨lane.requests_sorted ho, ?_⟩, ?_, run.log⟩
  · have hnote : .did t d ∈ notes n past := List.mem_filterMap.2 ⟨_, hd, if_pos rfl⟩
    obtain ⟨w, st, hu⟩ := lane.units_of_past hnote
    exact ⟨w, mem_arrivals.2 (lane.arrived_iff.2 ⟨st, hu⟩)⟩
  · obtain ⟨flight, hflight, heq⟩ := lane.flight
    exact ⟨flight, hflight.short, heq⟩
  -- The replay has just the words that were said.
  have hwords : (world l.session (notes n past)).remote.words =
      (Chain.turns (turns · (notes n past)) (arrivals (notes n past))).filterMap Doing.word? ++ [] := by
    rw [turns_filterMap _ word_seen hseen, seen_words, List.append_nil]
    rfl
  obtain ⟨lefts, shared, heq, hlefts, hreplayed⟩ := hchain.replay rfl hwords
  refine ⟨lefts, shared, s', heq, hreplayed.sessions, Session.ready_calm hcalm,
    Session.closed_calm hcalm, Session.client_calm hcalm, ?_, ?_, ?_⟩
  · rw [hreplayed.remote, turns_filterMap _ answered_seen hseen, seen_answered]
    rfl
  · rw [hreplayed.log, turns_filterMap _ entry_seen hseen, seen_entries]
    rfl
  · intro t w hwork
    obtain ⟨st, hu⟩ := (hl.works t w).1 hwork
    obtain ⟨left, st', hmem, hu', hleft⟩ := hlefts (t, w) (mem_arrivals.2 (lane.arrived_iff.2 ⟨st, hu⟩))
    obtain ⟨job, hjob, hat⟩ := hl.jobs t w st' hu'
    refine ⟨fun result hfinished => ?_, fun hdropped hend => ?_⟩
    · rw [hjob, Option.some.injEq] at hfinished
      subst hfinished
      obtain rfl := hat.1
      exact hleft.of_ended ▸ hmem
    · rw [hjob, Option.some.injEq] at hdropped
      subst hdropped
      obtain rfl := hat hend
      exact hleft.of_dead ▸ hmem

/-- A call, a load and a close stand in line for a session, and the caller of the call gives up. -/
def patients : List (Choice Unit) :=
  [.come (.invoke "game" "act" (.structured [])), .come (.load "game" (.bool true) [] false),
    .come (.close "game"), .ask 0, .ask 0, .ask 1, .ask 1, .ask 2, .ask 2, .read, .read, .read,
    .go 0, .go 1, .go 2, .go 0, .go 0, .giveUp 0] ++
    List.replicate 6 (.go 0) ++ List.replicate 9 (.go 1) ++ List.replicate 7 (.go 2)

theorem serial_patients : ∃ past S s, play obliging patients ([], quiet) = some (past, S) ∧
    S.sessions[0]? = some s ∧ Lane.InOrder (notes 0 past) ∧ (requests (notes 0 past)).length = 4 ∧
    S.Serial 0 s past := by
  have hplay : (play obliging patients ([], quiet)).map (fun x => (x.2.names,
      Lane.keepsOrder [] (notes 0 x.1), (requests (notes 0 x.1)).length)) = some (["game"], true, 4) := by
    decide
  obtain ⟨⟨past, S⟩, hplay, heq⟩ := Option.map_eq_some_iff.1 hplay
  rw [Prod.mk.injEq, Prod.mk.injEq] at heq
  obtain ⟨hnames, horder, hrequests⟩ := heq
  obtain ⟨s, hs, hid⟩ : ∃ s, S.sessions[0]? = some s ∧ s.id = "game" := by
    have hname : S.names[0]? = some "game" := by rw [hnames]; rfl
    rw [names, List.getElem?_map] at hname
    exact Option.map_eq_some_iff.1 hname
  have ho : Lane.InOrder (notes 0 past) := Lane.inOrder_of_check horder
  refine ⟨past, S, s, hplay, hs, ho, hrequests, Run.serial (run_of_play hplay .start) hs ?_ ho⟩
  rw [hid]
  decide

end Scene
end SessionPool
